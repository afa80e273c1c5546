import Realms.Json.Read

/-!
Reading records: values of which only certain fields are wanted. What is not wanted is skipped, and what
has another shape than the wanted one is refused where it stands.
-/
namespace Realms.Json

inductive Layout where
  | any
  | text
  | list (item : Layout)
  | record (fields : List (String × Bool × Layout))
deriving Inhabited

/-- A field of a record: its name, whether it must be there, and what is wanted of it. -/
abbrev Field := String × Bool × Layout

/-- A value that has another shape than the wanted one. Lists and objects are not looked into. -/
def readUnwanted {α : Type} (rounds : Nat) (b : UInt8) (rest : List UInt8) : Result (Read α) := do
  if b == 0x5B || b == 0x7B then .error .unexpected
  else
    let _ ← readScalar true rounds b rest
    .error .unexpected

/-- Where the next item of a list starts, unless the list ends here. -/
def nextItem (first : Bool) (bytes : List UInt8) : Result (Option (List UInt8)) :=
  match skipSpace bytes with
  | [] => .error .ended
  | b :: rest =>
    if b == 0x5D then .ok none
    else if first then .ok (some (b :: rest))
    else if b == 0x2C then
      match skipSpace rest with
      | [] => .error .ended
      | c :: more => if c == 0x5D then .error .malformed else .ok (some (c :: more))
    else .error .malformed

def readListEnd (bytes : List UInt8) : Result (List UInt8) :=
  match skipSpace bytes with
  | [] => .error .ended
  | b :: rest => if b == 0x5D then .ok rest else .error .malformed

def isMissing (found : List (String × Value)) (field : Field) : Bool :=
  field.2.1 && !found.any (·.1 == field.1)

def readPlaces (read : Layout → List UInt8 → Result (Read Value)) :
    List Field → Bool → List UInt8 → Result (Read (List (String × Value)))
  | [], _, bytes => do return ⟨[], ← readListEnd bytes⟩
  | (name, isNeeded, layout) :: fields, first, bytes => do
    match ← nextItem first bytes with
    | none =>
      if isNeeded || fields.any (·.2.1) then .error .unexpected
      else return ⟨[], ← readListEnd bytes⟩
    | some bytes =>
      let value ← read layout bytes
      let more ← readPlaces read fields false value.rest
      return ⟨(name, value.value) :: more.value, more.rest⟩

def readFields (read : Layout → List UInt8 → Result (Read Value)) (fields : List Field) :
    Nat → List (String × Value) → List UInt8 → Result (Read (List (String × Value)))
  | 0, _, _ => .error .ended
  | rounds + 1, found, bytes => do
    let key ← readKeyText true (rounds + 1) bytes
    let (found, rest) ← match fields.find? (·.1 == key.value) with
      | some (name, _, layout) => do
        if found.any (·.1 == name) then .error .unexpected
        else
          let value ← read layout (← readColon key.rest)
          pure (found ++ [(name, value.value)], value.rest)
      | none => do
        let value ← readValue false (rounds + 1) (rounds + 1) (← readColon key.rest)
        pure (found, value.rest)
    match ← readAfter 0x7D rest with
    | .closed rest => if fields.any (isMissing found) then .error .unexpected else return ⟨found, rest⟩
    | .more rest => readFields read fields rounds found rest


/-- A value in a layout, in at most so many levels. A record is given as an object of the fields that
are wanted and there. -/
def readAs (rounds : Nat) : Nat → Layout → List UInt8 → Result (Read Value)
  | levels, .any, bytes => readValue true rounds levels bytes
  | levels, layout, bytes =>
    match skipSpace bytes with
    | [] => .error .ended
    | b :: rest =>
      match layout, levels with
      | .text, _ =>
        if b == 0x22 then do
          let found ← readText true rounds rest
          return ⟨.text found.value, found.rest⟩
        else readUnwanted rounds b rest
      | .list item, levels + 1 =>
        if b == 0x5B then do
          match ← nextItem true rest with
          | none => return ⟨.list [], ← readListEnd rest⟩
          | some bytes =>
            let items ← readItems (readAs rounds levels item) rounds bytes
            return ⟨.list items.value, items.rest⟩
        else readUnwanted rounds b rest
      | .record fields, levels + 1 =>
        if b == 0x5B then do
          let found ← readPlaces (readAs rounds levels) fields true rest
          return ⟨.object found.value, found.rest⟩
        else if b == 0x7B then
          match skipSpace rest with
          | [] => .error .ended
          | c :: more =>
            if c == 0x7D then
              if fields.any (isMissing []) then .error .unexpected else .ok ⟨.object [], more⟩
            else do
              let found ← readFields (readAs rounds levels) fields rounds [] (c :: more)
              return ⟨.object found.value, found.rest⟩
        else readUnwanted rounds b rest
      | _, _ => if b == 0x5B || b == 0x7B then .error .malformed else readUnwanted rounds b rest

def readRecord (fields : List Field) (bytes : List UInt8) : Result Value :=
  readAs (bytes.length + 1) deepest (.record fields) bytes >>= endOfText

end Realms.Json
