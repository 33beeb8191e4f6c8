import Shorthand.Script.Basic
import Shorthand.Settings.File
/-!
# Script files

Scripts are written in TOML: the keys `text`, `caret`, `syntax` and `settings`, and one table `step` for each step,
whose `action` tells what kind of step it is.  A step is read whatever other keys it has; it may also be written as a
list of its action and the rest in order.
-/
namespace Shorthand

open Toml (Table Value leastInteger greatestInteger)

/-- The integers that a step may hold. -/
def Step.integersFit (v : Value) : Bool := v.integersIn leastInteger maxOffset

/-- The integers that an override may hold. -/
def Script.integersFit (t : Table) : Bool := Value.tableIntegersIn leastInteger greatestInteger t

namespace Step

/-- The fields of a step, found by name or by place. -/
inductive Fields where
  | named (t : Table)
  | placed (vs : List Value)

/-- The value of the field `name`, which comes at `place`. -/
def Fields.get? (f : Fields) (name : String) (place : Nat) : Option Value :=
  match f with
  | .named t => t.get? name
  | .placed vs => vs[place]?

/-- Fields that are listed are no more than `count`. -/
def Fields.atMost (f : Fields) (count : Nat) : Bool :=
  match f with
  | .named _ => true
  | .placed vs => vs.length ≤ count

def ofAction? (action : Text) (f : Fields) : Option Step :=
  let is (name : String) : Bool := action = name.toList
  if is "type" then do
    let text ← (f.get? "text" 0).bind Value.asText?
    if f.atMost 1 then some (.type text) else none
  else if is "backspace" then do
    let count ← ((f.get? "count" 0).map Value.asOffset?).getD (some 1)
    if f.atMost 1 then some (.backspace count) else none
  else if is "move" then do
    let pos ← (f.get? "pos" 0).bind Value.asOffset?
    if f.atMost 1 then some (.move pos) else none
  else if is "select" then do
    let anchor ← (f.get? "anchor" 0).bind Value.asOffset?
    let head ← (f.get? "head" 1).bind Value.asOffset?
    if f.atMost 2 then some (.select anchor head) else none
  else if is "command" then do
    let name ← (f.get? "name" 0).bind Value.asText?
    if f.atMost 1 then some (.command (String.ofList name)) else none
  else if is "undo" then if f.atMost 0 then some .undo else none
  else if is "complete" then do
    let commit ← ((f.get? "commit" 0).map Value.asTruth?).getD (some false)
    if f.atMost 1 then some (.complete commit) else none
  else if is "query" then do
    let key ← (f.get? "key" 0).bind Value.asText?
    if f.atMost 1 then some (.query (String.ofList key)) else none
  else if is "close" then if f.atMost 0 then some .close else none
  else none

def ofValue? (v : Value) : Option Step :=
  if !integersFit v then none
  else
    match v with
    | .table t => ((Table.get? t "action").bind Value.asText?).bind fun action => ofAction? action (.named t)
    | .list (.text action :: vs) => ofAction? action (.placed vs)
    | _ => none

end Step

namespace Script

def keys : List String := ["text", "caret", "syntax", "settings", "step"]

def ofTable? (t : Table) : Option Script := do
  if !t.hasOnly keys then none
  else
    let text ← ((t.get? "text").map Value.asText?).getD (some [])
    let caret ← ((t.get? "caret").map fun v => v.asOffset?.map some).getD (some none)
    let dialect ← ((t.get? "syntax").map Value.asText?).getD (some "html".toList)
    let overrides ← ((t.get? "settings").map Value.asTable?).getD (some [])
    if !integersFit overrides then none
    else
      let steps ←
        match t.get? "step" with
        | none => some []
        | some (.list vs) => vs.mapM Step.ofValue?
        | some _ => none
      some { text, caret, dialect := String.ofList dialect, overrides, steps }

def read? (source : Text) : Option Script := (Toml.read? source).bind ofTable?

/-- Why a script's settings cannot be used. -/
inductive OverrideError where
  | invalid
  | limitTooLarge
  deriving DecidableEq, Repr

def OverrideError.message : OverrideError → String
  | .invalid => "invalid [settings] in script"
  | .limitTooLarge => "out-of-range value for u64 type"

/-- The user's settings with those of the script in their place.  Settings can be overridden only if TOML can write
them, which leaves out limits of 64 bits. -/
def settingsOver (s : Script) (base : Settings) : Except OverrideError Settings :=
  if s.overrides.isEmpty then .ok base
  else if greatestInteger < base.contextSizeLimit then .error .limitTooLarge
  else
    match base.override? s.overrides with
    | none => .error .invalid
    | some settings => .ok settings

end Script
end Shorthand
