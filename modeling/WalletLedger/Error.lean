/-
**Why an operation is refused.** Each cause is a constructor with the data that its message shows.
Messages, stable codes, classes and status numbers are functions of the cause and stand here
together, so that a service names a cause and never a text.

Two families are finer than their code: `DatabaseFault` for what a database answered, and
`InternalFault` for states that the ledger itself rules out.
-/

set_option autoImplicit false

namespace WalletLedger

/-- What went wrong between the ledger and its database. -/
inductive DatabaseFault where
  /-- The connection could not be opened. -/
  | unreachable
  /-- The server refused a statement, with its own message. -/
  | answered (message : String)
  /-- The server refused a row whose key is taken. -/
  | keyTaken (message : String)
  /-- A statement that always yields a row yielded none. -/
  | noRow
  | missingColumn (name : String)
  /-- A column that may not be null is null. -/
  | nullColumn (name : String)
  /-- The value of a column has no decimal. -/
  | unrepresentable (name : String)
  /-- The value of a column is of another type. -/
  | mistyped (name : String)
  /-- Columns taken by position have no name to show. -/
  | nullPosition (index : Nat)
  /-- The store was told to fail in this method. -/
  | injected (method : String)
  | other (text : String)
deriving DecidableEq, Repr

namespace DatabaseFault

def unexpectedNull : String := "unexpected null; try decoding as an \x60Option\x60"

/-- The text of a value in a column that could not be read. -/
def decoding (column why : String) : String :=
  "error occurred while decoding column " ++ column ++ ": " ++ why

def quoted (name : String) : String := "\"" ++ name ++ "\""

def text : DatabaseFault → String
  | .unreachable => "error communicating with database: No such file or directory (os error 2)"
  | .answered message | .keyTaken message => "error returned from database: " ++ message
  | .noRow => "no rows returned by a query that expected to return at least one row"
  | .missingColumn name => "no column found for name: " ++ name
  | .nullColumn name => decoding (quoted name) unexpectedNull
  | .unrepresentable name =>
    decoding (quoted name) "value not representable as rust_decimal::Decimal"
  | .mistyped name => decoding (quoted name) "mismatched types"
  | .nullPosition index => decoding (toString index) unexpectedNull
  | .injected method => "injected " ++ method
  | .other text => text

end DatabaseFault

/-- What the ledger refuses although no caller's mistake explains it. -/
inductive InternalFault where
  /-- The symbol, already in quotes, is not a currency symbol. -/
  | invalidSymbol (quoted : String)
  | currencyRegistered (symbol : String)
  | precisionTooLarge (precision : Nat)
  | ownerExists (uuid : String)
  | duplicateReserveNumber (number : String)
  | withdrawRecorded (transfer : String)
  | amountOverflow
  | conversionOverflow
  | balanceOverflow
  /-- A column of a stored row holds a value that means nothing. -/
  | corrupt (column value : String)
  /-- A posting without a reference was refused as a duplicate. -/
  | conflictWithoutRef
  | other (text : String)
deriving DecidableEq, Repr

def InternalFault.text : InternalFault → String
  | .invalidSymbol quoted => "invalid currency symbol: " ++ quoted
  | .currencyRegistered symbol => "currency already registered: " ++ symbol
  | .precisionTooLarge precision => "precision too large: " ++ toString precision
  | .ownerExists uuid => "wallet owner already exists: " ++ uuid
  | .duplicateReserveNumber number => "duplicate reserve number: " ++ number
  | .withdrawRecorded transfer => "withdraw already recorded for transfer " ++ transfer
  | .amountOverflow => "amount overflow"
  | .conversionOverflow => "conversion overflow"
  | .balanceOverflow => "balance overflow"
  | .corrupt column value => "invalid " ++ column ++ " in database: " ++ value
  | .conflictWithoutRef => "transfer insert conflicted without a ref"
  | .other text => text

/-- **The causes of a refusal.** -/
inductive Error where
  | currencyNotFound (symbol : String)
  | walletNotFound
  | ownerNotFound (uuid : String)
  | withdrawalNotFound (id : Int)
  | reservationNotFound (number : String)
  | rateNotFound (source dest : String)
  | withdrawalProcessed
  | withdrawalNotCancelable
  | withdrawalNotRejectable
  | invalidReservation (why : String)
  /-- The reference belongs to a different posting. -/
  | refTaken (ref : String)
  | insufficientFunds
  | insufficientLiquidity
  | forbidden
  /-- A cashout wallet is no endpoint of a generic transfer. -/
  | cashoutEndpoint
  | noConversionPath (source dest : String)
  /-- Every attempt to write the wallet met a newer version. -/
  | contention (walletId : Int) (attempts : Nat)
  | invalidAmount
  | currencyMismatch (expected actual : String)
  | currencyInactive (symbol : String)
  | walletExists
  | rateExists (source dest : String)
  | invalidRate
  | sameWallet
  | withdrawalNotAllowed
  | belowMinimum
  | exceedsBalance
  | database (fault : DatabaseFault)
  | internal (fault : InternalFault)
deriving DecidableEq, Repr

namespace Error

/-- The sentence shown to a person. -/
def message : Error → String
  | .currencyNotFound symbol => "Currency not found: " ++ symbol
  | .walletNotFound => "Wallet not found"
  | .ownerNotFound uuid => "Wallet owner not found: " ++ uuid
  | .withdrawalNotFound id => "Withdraw not found: " ++ toString id
  | .reservationNotFound number => "Reservation not found: " ++ number
  | .rateNotFound source dest => "Rate not found: " ++ source ++ "/" ++ dest
  | .withdrawalProcessed => "Withdraw already processed"
  | .withdrawalNotCancelable => "Withdraw cannot be canceled"
  | .withdrawalNotRejectable => "Withdraw cannot be rejected"
  | .invalidReservation why => "Invalid reservation: " ++ why
  | .refTaken ref => "Transfer ref already used by a different posting: " ++ ref
  | .insufficientFunds => "Insufficient balance"
  | .insufficientLiquidity => "Current system assets are not enough"
  | .forbidden => "Forbidden"
  | .cashoutEndpoint => "Cashout wallet cannot be used as a transfer endpoint"
  | .noConversionPath source dest => "No exchangeable path from " ++ source ++ " to " ++ dest
  | .contention walletId attempts =>
    "Wallet " ++ toString walletId ++ " contention: gave up after " ++ toString attempts ++
      " attempts"
  | .invalidAmount => "Amount must be greater than zero"
  | .currencyMismatch expected actual =>
    "Currency mismatch: expected " ++ expected ++ ", got " ++ actual
  | .currencyInactive symbol => "Currency is not active: " ++ symbol
  | .walletExists => "Wallet already exists"
  | .rateExists source dest => "Rate already exists: " ++ source ++ "/" ++ dest
  | .invalidRate => "Rate must be greater than zero"
  | .sameWallet => "Source and destination wallet are the same"
  | .withdrawalNotAllowed => "Withdraw not allowed"
  | .belowMinimum => "Withdraw amount is less than minimum"
  | .exceedsBalance => "Withdraw amount exceeds wallet balance"
  | .database fault => "Database error: " ++ fault.text
  | .internal fault => "Internal system error: " ++ fault.text

/-- The stable code that programs compare. -/
def code : Error → String
  | .currencyNotFound _ => "CURRENCY_NOT_FOUND"
  | .walletNotFound => "WALLET_NOT_FOUND"
  | .ownerNotFound _ => "WALLET_OWNER_NOT_FOUND"
  | .withdrawalNotFound _ => "WITHDRAW_NOT_FOUND"
  | .reservationNotFound _ => "RESERVATION_NOT_FOUND"
  | .rateNotFound _ _ => "RATE_NOT_FOUND"
  | .withdrawalProcessed => "WITHDRAW_ALREADY_PROCESSED"
  | .withdrawalNotCancelable => "WITHDRAW_CANNOT_BE_CANCELED"
  | .withdrawalNotRejectable => "WITHDRAW_CANNOT_BE_REJECTED"
  | .invalidReservation _ => "INVALID_RESERVE_NUMBER"
  | .refTaken _ => "DUPLICATE_TRANSFER_REF"
  | .insufficientFunds => "INSUFFICIENT_BALANCE"
  | .insufficientLiquidity => "SYSTEM_ASSETS_NOT_ENOUGH"
  | .forbidden => "FORBIDDEN"
  | .cashoutEndpoint => "INVALID_CASHOUT_USAGE"
  | .noConversionPath _ _ => "NOT_EXCHANGEABLE_CURRENCIES"
  | .contention _ _ => "WALLET_CONTENTION"
  | .invalidAmount => "INVALID_AMOUNT"
  | .currencyMismatch _ _ => "CURRENCY_MISMATCH"
  | .currencyInactive _ => "CURRENCY_INACTIVE"
  | .walletExists => "WALLET_ALREADY_EXISTS"
  | .rateExists _ _ => "PAIR_IS_EXIST"
  | .invalidRate => "INVALID_RATE"
  | .sameWallet => "SAME_WALLET"
  | .withdrawalNotAllowed => "WITHDRAW_NOT_ALLOWED"
  | .belowMinimum => "WITHDRAW_AMOUNT_LESS_THAN_MINIMUM"
  | .exceedsBalance => "WITHDRAW_AMOUNT_EXCEEDS_WALLET_BALANCE"
  | .database _ => "DATABASE_ERROR"
  | .internal _ => "SYSTEM_ERROR"

/-- The coarse class of a cause. -/
inductive Kind where
  | notFound
  | invalidState
  | insufficientFunds
  | forbidden
  | noConversionPath
  | contention
  | invalid
  | internal
deriving DecidableEq, Repr

def kind : Error → Kind
  | .currencyNotFound _ | .walletNotFound | .ownerNotFound _ | .withdrawalNotFound _
  | .reservationNotFound _ | .rateNotFound _ _ => .notFound
  | .withdrawalProcessed | .withdrawalNotCancelable | .withdrawalNotRejectable
  | .invalidReservation _ | .refTaken _ => .invalidState
  | .insufficientFunds | .insufficientLiquidity => .insufficientFunds
  | .forbidden | .cashoutEndpoint => .forbidden
  | .noConversionPath _ _ => .noConversionPath
  | .contention _ _ => .contention
  | .invalidAmount | .currencyMismatch _ _ | .currencyInactive _ | .walletExists
  | .rateExists _ _ | .invalidRate | .sameWallet | .withdrawalNotAllowed | .belowMinimum
  | .exceedsBalance => .invalid
  | .database _ | .internal _ => .internal

/-- The name under which a class is reported. -/
def Kind.name : Kind → String
  | .notFound => "NotFound"
  | .invalidState => "InvalidState"
  | .insufficientFunds => "InsufficientFunds"
  | .forbidden => "Forbidden"
  | .noConversionPath => "NoConversionPath"
  | .contention => "Contention"
  | .invalid => "Invalid"
  | .internal => "Internal"

/-- The status number that a web interface answers with. -/
def Kind.status : Kind → Nat
  | .notFound => 404
  | .invalidState => 409
  | .insufficientFunds | .noConversionPath => 422
  | .forbidden => 403
  | .invalid => 400
  | .contention => 503
  | .internal => 500

/-- Only a lost race for a wallet is safe to try again as a whole. -/
def isRetryable : Error → Bool
  | .contention _ _ => true
  | _ => false

/-- **A failure from outside the ledger,** described by its innermost text and the contexts
wrapped around it, is internal and shows the outermost description. -/
def ofForeign (text : String) (contexts : List String) : Error :=
  .internal (.other (contexts.getLastD text))

end Error

end WalletLedger
