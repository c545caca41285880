import LoadGenerator.Json.Skip

/-!
# Reading records

A record is written as an object, its fields in any order and keys that it does not know passed
over, or as a list of its fields in order. `Schema.read` fills in a draft field by field; a draft in
which fields are missing is finished where they have defaults and refused otherwise. What is found
to be missing or doubled is reported at the end of the record, if that is where reading stands.
`decode` reads a text that holds one value and nothing else.
-/

namespace LoadGenerator.Json

/-- A field of a record that is read into a draft. -/
structure Field (σ : Type) where
  name : String
  isSet : σ → Bool
  read : σ → Reader σ

/-- The field that a draft keeps as an optional value. -/
def Field.ofOption {σ β : Type} (name : String) (get : σ → Option β) (set : σ → β → σ)
    (reader : Reader β) : Field σ :=
  ⟨name, fun draft => (get draft).isSome, fun draft cs => do
    let (b, cs) ← reader cs
    .ok (set draft b, cs)⟩

/-- How the records of a type are read: their name, their fields in order, the draft without any
field, and the record of a draft or the name of the first field that it lacks. -/
structure Schema (σ α : Type) where
  name : String
  fields : List (Field σ)
  empty : σ
  finish : σ → Except String α

def require {β : Type} (name : String) : Option β → Except String β
  | some b => .ok b
  | none => .error name

namespace Schema

variable {σ α : Type}

/-- The record of a draft, at the place after its end. -/
def close (s : Schema σ α) (draft : σ) : Reader α := fun cs =>
  match s.finish draft with
  | .ok a => .ok (a, cs)
  | .error name => failAt (.missingField name) cs

/-! ### Lists of fields -/

/-- The end of a list all of whose fields have been read. -/
def closeList (s : Schema σ α) (draft : σ) : Reader α := fun cs =>
  match skipBlanks cs with
  | [] => failAhead (.endOfText .list) []
  | c :: cs =>
    if c = ']' then s.close draft cs
    else if c = ',' then
      let cs := skipBlanks cs
      failAhead (if cs.head? = some ']' then .trailingComma else .trailingCharacters) cs
    else failAhead .trailingCharacters (c :: cs)

/-- A list that ends after `count` fields: the rest have their defaults, or its length is at
fault. -/
def shortList (s : Schema σ α) (draft : σ) (count : Nat) : Reader α := fun cs =>
  match s.finish draft with
  | .ok a => .ok (a, cs)
  | .error _ => failAt (.invalidLength count s.name s.fields.length) cs

/-- The fields of a list from the one at `index` on. -/
def elements (s : Schema σ α) : Nat → List (Field σ) → σ → Reader α
  | _, [], draft => s.closeList draft
  | index, field :: fields, draft => fun cs =>
    match skipBlanks cs with
    | [] => failAhead (.endOfText .list) []
    | c :: cs =>
      if c = ']' then s.shortList draft index cs
      else if index = 0 then do
        let (draft, cs) ← field.read draft (c :: cs)
        s.elements (index + 1) fields draft cs
      else if c = ',' then
        match skipBlanks cs with
        | [] => failAhead (.endOfText .value) []
        | c :: cs =>
          if c = ']' then failAhead .trailingComma (c :: cs)
          else do
            let (draft, cs) ← field.read draft (c :: cs)
            s.elements (index + 1) fields draft cs
      else failAhead .expectedCommaOrBracket (c :: cs)

/-! ### Objects -/

def failDuplicate (name : String) : Reader α := fun cs =>
  match skipBlanks cs with
  | '\x7d' :: cs => failAt (.duplicateField name) cs
  | cs => failAt (.duplicateField name) cs

/-- A member whose opening quote has been read: its field is set, or its value passed over. -/
def member (s : Schema σ α) (draft : σ) : Reader σ := fun cs => do
  let (key, cs) ← string cs
  match s.fields.find? (·.name == String.ofList key) with
  | none => do
    let (_, cs) ← colon cs
    let (_, cs) ← skip cs
    .ok (draft, cs)
  | some field =>
    if field.isSet draft then failDuplicate field.name cs
    else do
      let (_, cs) ← colon cs
      field.read draft cs

/-- The rest of an object, before or after its first member. -/
def members (s : Schema σ α) : Nat → Bool → σ → Reader α
  | 0, _, _ => failAhead (.endOfText .object)
  | fuel + 1, first, draft => fun cs =>
    match skipBlanks cs with
    | [] => failAhead (.endOfText .object) []
    | c :: cs =>
      if c = '\x7d' then s.close draft cs
      else if first then
        if c = '"' then do
          let (draft, cs) ← s.member draft cs
          s.members fuel false draft cs
        else failAhead .keyNotString (c :: cs)
      else if c = ',' then
        match skipBlanks cs with
        | [] => failAhead (.endOfText .value) []
        | c :: cs =>
          if c = '"' then do
            let (draft, cs) ← s.member draft cs
            s.members fuel false draft cs
          else if c = '\x7d' then failAhead .trailingComma (c :: cs)
          else failAhead .keyNotString (c :: cs)
      else failAhead .expectedCommaOrBrace (c :: cs)

def read (s : Schema σ α) : Reader α :=
  onFirst fun c cs =>
    if c = '[' then s.elements 0 s.fields s.empty cs
    else if c = '\x7b' then s.members (cs.length + 1) true s.empty cs
    else mismatch ("struct " ++ s.name) (c :: cs)

end Schema

/-! ### Whole texts -/

/-- Reads a value that nothing but blanks follows. -/
def whole {α : Type} (reader : Reader α) (text : List Char) : Except Failure α := do
  let (a, cs) ← reader text
  match skipBlanks cs with
  | [] => .ok a
  | c :: cs => .error ⟨.trailingCharacters, c :: cs, 1⟩

/-- Reads a text that holds one value and nothing else. -/
def decode {α : Type} (reader : Reader α) (text : String) : Except Error α :=
  (whole reader text.toList).mapError (Failure.toError text.toList)

end LoadGenerator.Json
