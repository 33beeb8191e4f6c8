import Shorthand.Settings
import Shorthand.Toml.Document
/-!
# Settings files

Settings are written in TOML, one key for each; those left out keep their defaults, and there are no other keys.
-/
namespace Shorthand.Settings

open Toml (Table Value)

def keys : List String := ["auto-mark", "tab-expand", "context-size-limit", "jsx-prefix"]

/-- What a table says about one setting: what `as?` makes of the value of its key, or else what it has been. -/
def setting? {α : Type} (t : Table) (key : String) (as? : Value → Option α) (otherwise : α) : Option α :=
  match t.get? key with
  | none => some otherwise
  | some v => as? v

def override? (base : Settings) (t : Table) : Option Settings := do
  if !t.hasOnly keys then none
  else
    let autoMark ← setting? t "auto-mark" Value.asTruth? base.autoMark
    let tabExpand ← setting? t "tab-expand" Value.asTruth? base.tabExpand
    let contextSizeLimit ← setting? t "context-size-limit" Value.asOffset? base.contextSizeLimit
    let lead ← setting? t "jsx-prefix" Value.asText? base.lead
    some { autoMark, tabExpand, contextSizeLimit, lead }

def read? (source : Text) : Option Settings := (Toml.read? source).bind fun t => override? {} t

end Shorthand.Settings
