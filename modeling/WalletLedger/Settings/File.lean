/-
**Settings files.** In a file every record is given by name, and no field twice; what the fields
themselves may be is said where the settings are.
-/
import WalletLedger.Document.Yaml
import WalletLedger.Settings

set_option autoImplicit false

namespace WalletLedger

/-- What is found where a settings file is looked for. -/
inductive SettingsFile where
  | missing
  /-- A file that is no document. -/
  | malformed
  | holding (document : Document)

namespace SettingsFile

def ofText (s : String) : SettingsFile :=
  match Yaml.read? s with
  | some d => .holding d
  | none => .malformed

end SettingsFile

namespace Settings

/-- Whether a field holds a record that is given by name; a missing field does. -/
def sectionIsNamed (d : Document) (name : String) (fields : List String) : Bool :=
  (d.field? name).all (·.isNamed fields)

/-- Whether a field holds a list of records that are given by name. -/
def itemsAreNamed (d : Document) (name : String) (fields : List String) : Bool :=
  match d.field? name with
  | some (.list items) => items.all (·.isNamed fields)
  | _ => true

/-- Whether all records of a file are given by name. -/
def isNamed (d : Document) : Bool :=
  d.isNamed fields &&
  sectionIsNamed d "ledger" LedgerSettings.fields &&
  sectionIsNamed d "conversion" RoutingSettings.fields &&
  sectionIsNamed d "reservation" ReservationSettings.fields &&
  itemsAreNamed d "currencies" Currency.fields &&
  itemsAreNamed d "withdraw_policies" WithdrawalPolicyEntry.fields

/-- **The settings of a file.** -/
def ofFile? : SettingsFile → Option Settings
  | .holding d => if isNamed d then ofDocument? d else none
  | _ => none

end Settings

end WalletLedger
