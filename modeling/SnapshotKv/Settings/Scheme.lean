import SnapshotKv.Attempt
import SnapshotKv.Json.Document
import SnapshotKv.SortedMap
import SnapshotKv.Text.Blank
import SnapshotKv.Text.Unsigned

/-!
# Settings from parameters

A `Scheme σ` interprets named parameters as settings of type `σ`. Parameters come as texts
`key=value` or as the fields of a JSON object; they are assigned one after another, the last
assignment of a key wins, and the first one that is malformed or unknown ends the attempt with what
was assigned before it.
-/

namespace SnapshotKv

/-- How the parameters of one scope are read into settings. -/
structure Scheme (σ : Type) where
  /-- The name of the scope in messages. -/
  scope : String
  /-- The settings when nothing is assigned. -/
  initial : σ
  /-- Assigns the text of a value to a key. -/
  assign : σ → (key value : String) → Except Fault σ
  /-- The text of a setting; none for an unknown key. -/
  read : σ → (key : String) → Option String

/-- The fields of a JSON object in ascending order of their names. -/
abbrev Layer := SortedMap String Json

namespace Param

/-- A parameter cut at its first equality sign, both sides trimmed; the key may not be blank. -/
def split (param : String) : Except Fault (String × String) :=
  match Text.splitAt? '=' param with
  | some (key, value) =>
    if (Text.trim key).isEmpty then throw (Fault.notAPair param)
    else pure (Text.trim key, Text.trim value)
  | none => throw (Fault.notAPair param)

/-- The value of a switch. -/
def readBool (key value : String) : Except Fault Bool :=
  if value = "true" then pure true
  else if value = "false" then pure false
  else throw (Fault.notABoolean key value)

/-- The value of a count. -/
def readNat (key value : String) : Except Fault Nat :=
  match Unsigned.read value with
  | .ok n => pure n
  | .error p => throw (Fault.notANumber key value p)

/-- The value of a path, which may not be empty. -/
def readPath (key value : String) : Except Fault String :=
  if value.isEmpty then throw (Fault.paramEmpty key) else pure value

end Param

namespace Scheme

variable {σ : Type}

/-- Assigns one key and keeps the settings as they are when that fails. -/
def assignKey (S : Scheme σ) (key value : String) : Attempt σ Unit :=
  Attempt.ofStep fun s =>
    match S.assign s key value with
    | .ok s' => (.ok (), s')
    | .error e => (.error e, s)

/-- Assigns one parameter of the form `key=value`. -/
def applyPair (S : Scheme σ) (param : String) : Attempt σ Unit := do
  let (key, value) ← Attempt.check (Param.split param)
  S.assignKey key value

/-- Assigns parameters in their order. -/
def applyPairs (S : Scheme σ) (params : List String) : Attempt σ Unit :=
  params.forM S.applyPair

/-- Assigns one field of a JSON object; its value must be a scalar. -/
def applyField (S : Scheme σ) (field : String × Json) : Attempt σ Unit :=
  match field.2.scalar? with
  | some value => S.assignKey field.1 value
  | none => throw (Fault.notAScalar S.scope field.1)

/-- Assigns the fields of a JSON object in the order of their names. -/
def applyLayer (S : Scheme σ) (layer : Layer) : Attempt σ Unit :=
  layer.entries.forM S.applyField

/-- The settings that an attempt makes of the initial ones. -/
def resolve (S : Scheme σ) (a : Attempt σ Unit) : Except Fault σ :=
  match a.on S.initial with
  | (.ok (), s) => pure s
  | (.error e, _) => throw e

/-- The settings that parameters alone give. -/
def ofPairs (S : Scheme σ) (params : List String) : Except Fault σ :=
  S.resolve (S.applyPairs params)

/-- The settings that some layers and then some parameters give. -/
def ofLayers (S : Scheme σ) (layers : List Layer) (params : List String) : Except Fault σ :=
  S.resolve do
    layers.forM S.applyLayer
    S.applyPairs params

/-- The fault for a key that the scope does not know. -/
def unknown (scope key : String) : Fault := Fault.unknownParam scope key

end Scheme

end SnapshotKv
