/-
**The schema:** the tables and indexes that a ledger needs in its database. Each is created only if
it is missing, so that the schema can be applied at every start.
-/
import WalletLedger.Database.Basic

set_option autoImplicit false

namespace WalletLedger

/-- A table: what is said of its columns and of their combinations. -/
structure Table where
  name : String
  columns : List String

/-- An index of a table by some of its columns. -/
structure TableIndex where
  name : String
  table : String
  columns : List String
  isUnique : Bool

def Table.text (t : Table) : String :=
  "CREATE TABLE IF NOT EXISTS " ++ t.name ++ " (\n    " ++ ",\n    ".intercalate t.columns ++ "\n);"

def TableIndex.text (i : TableIndex) : String :=
  (if i.isUnique then "CREATE UNIQUE INDEX" else "CREATE INDEX") ++ " IF NOT EXISTS " ++ i.name ++
    " ON " ++ i.table ++ " (" ++ ", ".intercalate i.columns ++ ");"

namespace Schema

/-! ## Tables -/

def currencies : Table where
  name := "currencies_tb"
  columns := [
    "symbol VARCHAR(32) PRIMARY KEY",
    "name VARCHAR(128) NOT NULL",
    "precision_dp INTEGER NOT NULL CHECK (precision_dp >= 0)",
    "is_transitive BOOLEAN NOT NULL DEFAULT FALSE",
    "is_active BOOLEAN NOT NULL DEFAULT TRUE"]

def walletOwners : Table where
  name := "wallet_owners_tb"
  columns := [
    "id BIGSERIAL PRIMARY KEY",
    "uuid VARCHAR(64) NOT NULL UNIQUE",
    "title VARCHAR(128) NOT NULL",
    "level VARCHAR(32) NOT NULL",
    "flags INTEGER NOT NULL",
    "created_at TIMESTAMPTZ NOT NULL DEFAULT NOW()"]

def wallets : Table where
  name := "wallets_tb"
  columns := [
    "id BIGSERIAL PRIMARY KEY",
    "owner_id BIGINT NOT NULL REFERENCES wallet_owners_tb (id)",
    "currency VARCHAR(32) NOT NULL REFERENCES currencies_tb (symbol)",
    "wallet_type SMALLINT NOT NULL",
    "balance NUMERIC(38, 18) NOT NULL CHECK (balance >= 0)",
    "version BIGINT NOT NULL DEFAULT 0",
    "UNIQUE (owner_id, currency, wallet_type)"]

def transfers : Table where
  name := "transfers_tb"
  columns := [
    "id VARCHAR(26) PRIMARY KEY",
    "source_wallet_id BIGINT NOT NULL REFERENCES wallets_tb (id)",
    "source_owner_uuid VARCHAR(64) NOT NULL",
    "source_wallet_type SMALLINT NOT NULL",
    "dest_wallet_id BIGINT NOT NULL REFERENCES wallets_tb (id)",
    "dest_owner_uuid VARCHAR(64) NOT NULL",
    "dest_wallet_type SMALLINT NOT NULL",
    "source_currency VARCHAR(32) NOT NULL",
    "source_amount NUMERIC(38, 18) NOT NULL",
    "dest_currency VARCHAR(32) NOT NULL",
    "dest_amount NUMERIC(38, 18) NOT NULL",
    "source_balance_before NUMERIC(38, 18) NOT NULL",
    "source_balance_after NUMERIC(38, 18) NOT NULL",
    "dest_balance_before NUMERIC(38, 18) NOT NULL",
    "dest_balance_after NUMERIC(38, 18) NOT NULL",
    "description TEXT",
    "transfer_ref VARCHAR(256) UNIQUE",
    "category SMALLINT NOT NULL",
    "created_at TIMESTAMPTZ NOT NULL"]

def rates : Table where
  name := "rates_tb"
  columns := [
    "source_symbol VARCHAR(32) NOT NULL REFERENCES currencies_tb (symbol)",
    "dest_symbol VARCHAR(32) NOT NULL REFERENCES currencies_tb (symbol)",
    "rate NUMERIC(38, 18) NOT NULL CHECK (rate > 0)",
    "PRIMARY KEY (source_symbol, dest_symbol)"]

def forbiddenPairs : Table where
  name := "forbidden_pairs_tb"
  columns := [
    "source_symbol VARCHAR(32) NOT NULL",
    "dest_symbol VARCHAR(32) NOT NULL",
    "PRIMARY KEY (source_symbol, dest_symbol)"]

def reservedTransfers : Table where
  name := "reserved_transfers_tb"
  columns := [
    "reserve_number VARCHAR(64) PRIMARY KEY",
    "source_symbol VARCHAR(32) NOT NULL",
    "dest_symbol VARCHAR(32) NOT NULL",
    "source_amount NUMERIC(38, 18) NOT NULL",
    "reserved_dest_amount NUMERIC(38, 18) NOT NULL",
    "sender_uuid VARCHAR(64) NOT NULL",
    "sender_wallet_type SMALLINT NOT NULL",
    "receiver_uuid VARCHAR(64) NOT NULL",
    "receiver_wallet_type SMALLINT NOT NULL",
    "reserve_date TIMESTAMPTZ NOT NULL",
    "exp_date TIMESTAMPTZ NOT NULL",
    "status SMALLINT NOT NULL",
    "settle_ref VARCHAR(256)",
    "settle_attempt VARCHAR(32)",
    "settle_description TEXT",
    "settle_started_at TIMESTAMPTZ"]

def withdraws : Table where
  name := "withdraws_tb"
  columns := [
    "id BIGSERIAL PRIMARY KEY",
    "owner_uuid VARCHAR(64) NOT NULL",
    "currency VARCHAR(32) NOT NULL",
    "wallet_id BIGINT NOT NULL REFERENCES wallets_tb (id)",
    "amount NUMERIC(38, 18) NOT NULL",
    "request_transaction VARCHAR(26) NOT NULL",
    "final_transaction VARCHAR(26)",
    "applied_fee NUMERIC(38, 18) NOT NULL",
    "dest_amount NUMERIC(38, 18)",
    "dest_symbol VARCHAR(32)",
    "dest_address VARCHAR(256)",
    "dest_network VARCHAR(64)",
    "dest_note TEXT",
    "dest_transaction_ref VARCHAR(256)",
    "status_reason TEXT",
    "status SMALLINT NOT NULL",
    "applicator VARCHAR(64)",
    "withdraw_type SMALLINT NOT NULL",
    "attachment TEXT",
    "create_date TIMESTAMPTZ NOT NULL DEFAULT NOW()",
    "update_date TIMESTAMPTZ"]

/-! ## Indexes -/

def bySourceOwner : TableIndex :=
  ⟨"idx_transfers_source_owner", transfers.name, ["source_owner_uuid", "created_at"], false⟩

def byDestOwner : TableIndex :=
  ⟨"idx_transfers_dest_owner", transfers.name, ["dest_owner_uuid", "created_at"], false⟩

def byExpiry : TableIndex :=
  ⟨"idx_reserved_status_exp", reservedTransfers.name, ["status", "exp_date"], false⟩

/-- No two withdrawals were requested by one posting. -/
def byRequest : TableIndex :=
  ⟨"idx_withdraws_request_tx", withdraws.name, ["request_transaction"], true⟩

def byOwner : TableIndex :=
  ⟨"idx_withdraws_owner", withdraws.name, ["owner_uuid", "create_date"], false⟩

def byStatus : TableIndex := ⟨"idx_withdraws_status", withdraws.name, ["status"], false⟩

/-! ## The whole -/

/-- **The text of the schema.** A table follows the tables that it refers to, and an index its
table. -/
def text : String :=
  "\n\n".intercalate [
    "-- Custody ledger schema (PostgreSQL)",
    currencies.text, walletOwners.text, wallets.text,
    transfers.text, bySourceOwner.text, byDestOwner.text,
    rates.text, forbiddenPairs.text,
    reservedTransfers.text, byExpiry.text,
    withdraws.text, byRequest.text, byOwner.text, byStatus.text]

end Schema

/-- Creates what is missing. -/
def Database.applySchema : Action Database Unit := do
  let _ ← Database.execute ⟨Schema.text, []⟩

end WalletLedger
