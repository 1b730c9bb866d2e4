/-
**The table of owners and wallets, and the log of postings.** A write of a balance names the
version that it was computed from and is applied only while the wallet is still at that version;
the write then advances the version by one. A posting writes two balances and appends to the log
as one step, or does nothing at all.

Two indexes stand beside the rows: from the key of a wallet to its number, and from a reference to
the place of its posting in the log.
-/
import WalletLedger.Posting

set_option autoImplicit false

namespace WalletLedger

structure WalletTable where
  owners : List Owner
  wallets : List Wallet
  /-- The number of the wallet with a key. -/
  keys : List (WalletKey × Int)
  /-- The postings, oldest first. -/
  log : List Posting
  /-- The place in the log of the posting with a reference. -/
  refs : List (String × Nat)
  lastOwnerId : Int
  lastWalletId : Int
  /-- How many of the next writes are to be told that they come too late. -/
  conflicts : Nat
deriving DecidableEq

namespace WalletTable

def empty : WalletTable := ⟨[], [], [], [], [], 0, 0, 0⟩

/-! ## Owners -/

def owner? (t : WalletTable) (uuid : String) : Option Owner := t.owners.find? (·.uuid == uuid)

/-- A new owner gets the next number. -/
def createOwner (t : WalletTable) (uuid title level : String) (flags : Int) :
    Except Error (Owner × WalletTable) :=
  if (t.owner? uuid).isSome then .error (.internal (.ownerExists uuid))
  else
    let owner : Owner := { id := t.lastOwnerId + 1, uuid, title, level, flags }
    .ok (owner, { t with owners := t.owners ++ [owner], lastOwnerId := owner.id })

def setFlags (t : WalletTable) (uuid : String) (flags : Int) :
    Except Error (Owner × WalletTable) :=
  match t.owner? uuid with
  | none => .error (.ownerNotFound uuid)
  | some owner =>
    .ok ({ owner with flags },
      { t with owners := t.owners.map fun o => if o.uuid = uuid then { o with flags } else o })

/-! ## Wallets -/

def wallet? (t : WalletTable) (id : Int) : Option Wallet := t.wallets.find? (·.id == id)

def find? (t : WalletTable) (key : WalletKey) : Option Wallet :=
  (t.keys.lookup key).bind t.wallet?

/-- The wallets of an owner by number. -/
def walletsOf (t : WalletTable) (ownerId : Int) : List Wallet :=
  (t.wallets.filter (·.ownerId == ownerId)).mergeSort fun a b => a.id ≤ b.id

/-- What a new wallet must meet before any table is looked at. -/
def checkInitial (key : WalletKey) (initial : Amount) : Except Error Unit :=
  if initial.currency ≠ key.currency then
    .error (.currencyMismatch key.currency initial.currency)
  else if initial.value.isNegative then .error .invalidAmount
  else .ok ()

/-- **A new wallet** gets the next number and version 0. Its key must be free. -/
def createWallet (t : WalletTable) (owner : Owner) (key : WalletKey) (initial : Amount) :
    Except Error (Wallet × WalletTable) := do
  checkInitial key initial
  if (t.keys.lookup key).isSome then .error .walletExists
  else
    let wallet : Wallet :=
      { id := t.lastWalletId + 1, ownerId := owner.id, ownerUuid := owner.uuid,
        currency := key.currency, kind := key.kind, balance := initial.value, version := 0 }
    .ok (wallet,
      { t with
        wallets := t.wallets ++ [wallet]
        keys := t.keys ++ [(key, wallet.id)]
        lastWalletId := wallet.id })

/-! ## Balances -/

/-- Whether the wallet of a write is still at the version that the write expects. -/
def isCurrent (t : WalletTable) (w : BalanceWrite) : Except Error Bool :=
  match t.wallet? w.walletId with
  | none => .error .walletNotFound
  | some wallet => .ok (wallet.version == w.expectedVersion)

/-- The wallet after a write. -/
def written (w : BalanceWrite) (wallet : Wallet) : Wallet :=
  { wallet with balance := w.newBalance, version := wallet.version + 1 }

/-- The table after a write that is current. -/
def write (t : WalletTable) (w : BalanceWrite) : WalletTable :=
  { t with wallets := t.wallets.map fun x => if x.id = w.walletId then written w x else x }

/-- Uses up one of the conflicts that were asked for, if any are left. -/
def takeConflict? (t : WalletTable) : Option WalletTable :=
  match t.conflicts with
  | 0 => none
  | n + 1 => some { t with conflicts := n }

/-- **Writing one balance.** There is no wallet in the answer if the write came too late. -/
def compareAndSet (t : WalletTable) (w : BalanceWrite) :
    Except Error (Option Wallet × WalletTable) :=
  match t.takeConflict? with
  | some t' => .ok (none, t')
  | none => do
    if ← t.isCurrent w then
      let t' := t.write w
      return (t'.wallet? w.walletId, t')
    else return (none, t)

/-! ## Postings -/

/-- The posting with a reference. -/
def byRef? (t : WalletTable) (ref : String) : Option Posting :=
  (t.refs.lookup ref).bind fun place => t.log[place]?

/-- The table with a posting at the end of its log. -/
def append (t : WalletTable) (p : Posting) : WalletTable :=
  { t with
    log := t.log ++ [p]
    refs := match p.ref with
      | none => t.refs
      | some ref => t.refs ++ [(ref, t.log.length)] }

/-- **Posting.** The reference is looked at before the versions, and both versions before either
balance is written. -/
def commit (t : WalletTable) (debit credit : BalanceWrite) (p : Posting) :
    Except Error (CommitOutcome × WalletTable) :=
  match t.takeConflict? with
  | some t' => .ok (.versionConflict, t')
  | none =>
    match p.ref.bind t.byRef? with
    | some earlier => .ok (.duplicate earlier, t)
    | none => do
      if ← t.isCurrent debit then
        if ← t.isCurrent credit then
          return (.committed, ((t.write debit).write credit).append p)
        else return (.versionConflict, t)
      else return (.versionConflict, t)

/-- The postings that a filter accepts, as the page shows them. -/
def postings (t : WalletTable) (f : Posting.Filter) (page : Page) : List Posting :=
  page.of (Posting.listing f t.log)

end WalletTable

end WalletLedger
