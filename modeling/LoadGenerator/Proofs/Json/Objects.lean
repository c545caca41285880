import LoadGenerator.Json.Record
import LoadGenerator.Proofs.Json.Values

/-!
# Records as they are written

`Schema.Body` says what may stand between the braces of an object: members apart by commas, with any
blanks around them, each of which turns the draft into the next. It is read to the draft that it
ends in (`Schema.Body.members_eq`). An object on one line and one with a line for each member are
two layouts of such a body (`Layout`), so a record is read back from either as long as its values
spell the fields that its keys name (`Schema.decode_write`).
-/

namespace LoadGenerator.Json

instance (cs : List Char) : Decidable (AllBlank cs) :=
  decidable_of_iff _ List.all_eq_true

/-- How an object is laid out: the blanks before a member and before the closing brace, those in
front of a key and those in front of a value. -/
structure Layout where
  newline : List Char
  indent : List Char
  gap : List Char
  newline_blank : AllBlank newline := by decide
  indent_blank : AllBlank indent := by decide
  gap_blank : AllBlank gap := by decide

namespace Layout

def compact : Layout where
  newline := []
  indent := []
  gap := []

def pretty : Layout where
  newline := ['\n']
  indent := [' ', ' ']
  gap := [' ']

def writeMember (l : Layout) (member : Member) : List Char :=
  l.indent ++ (writeString member.1.toList ++ ':' :: (l.gap ++ member.2))

def write (l : Layout) (members : List Member) : List Char :=
  '\x7b' :: (l.newline ++ (',' :: l.newline).intercalate (members.map l.writeMember) ++
    (l.newline ++ ['\x7d']))

theorem write_compact (members : List Member) : compact.write members = writeCompact members :=
  rfl

theorem write_pretty (members : List Member) : pretty.write members = writePretty members :=
  rfl

/-- A member up to its opening quote, and after it. -/
theorem writeMember_eq (l : Layout) (member : Member) : l.writeMember member = l.indent ++
    '"' :: (member.1.toList.flatMap writeChar ++ '"' :: ':' :: (l.gap ++ member.2)) := by
  simp [writeMember, writeString]

end Layout

theorem intercalate_cons {α : Type} (sep l : List α) (ls : List (List α)) :
    sep.intercalate (l :: ls) = l ++ ls.flatMap (sep ++ ·) := by
  induction ls generalizing l with
  | nil => simp
  | cons l' ls ih => simp [ih]

variable {blanks cs : List Char}

theorem AllBlank.append {more : List Char} (h : AllBlank blanks) (hmore : AllBlank more) :
    AllBlank (blanks ++ more) :=
  List.forall_mem_append.2 ⟨h, hmore⟩

theorem colon_append (h : AllBlank blanks) : colon (blanks ++ ':' :: cs) = .ok ((), cs) := by
  unfold colon
  rw [skipBlanks_append h (by decide)]
  rfl

theorem Spells.ofOption {σ β : Type} {name : String} {get : σ → Option β} {set : σ → β → σ}
    {reader : Reader β} {value : List Char} {b : β} (h : Spells reader value b) (draft : σ) :
    Spells ((Field.ofOption name get set reader).read draft) value (set draft b) := by
  intro blanks rest hblanks hrest
  simp only [Field.ofOption, h blanks rest hblanks hrest, bind, Except.bind]

namespace Schema

variable {σ α : Type}

/-- The member without its opening quote turns the draft into the other, whatever comes after. -/
def Turns (s : Schema σ α) (draft : σ) (member : List Char) (draft' : σ) : Prop :=
  ∀ rest, EndsValue rest → s.member draft (member ++ rest) = .ok (draft', rest)

/-- The text ends an object, before or after its first member, and turns the draft into the
other. -/
inductive Body (s : Schema σ α) : Bool → σ → List Char → σ → Prop where
  | close {first : Bool} {draft : σ} {blanks : List Char} (hblanks : AllBlank blanks) :
      Body s first draft (blanks ++ ['\x7d']) draft
  | first {draft mid draft' : σ} {blanks member text : List Char} (hblanks : AllBlank blanks)
      (hmember : s.Turns draft member mid) (htext : Body s false mid text draft') :
      Body s true draft (blanks ++ '"' :: (member ++ text)) draft'
  | next {draft mid draft' : σ} {before after member text : List Char} (hbefore : AllBlank before)
      (hafter : AllBlank after) (hmember : s.Turns draft member mid)
      (htext : Body s false mid text draft') :
      Body s false draft (before ++ ',' :: (after ++ '"' :: (member ++ text))) draft'

/-- The member has the key of a field that the draft lacks, and its value spells what turns the
draft into the other. -/
def Takes (s : Schema σ α) (draft : σ) (member : Member) (draft' : σ) : Prop :=
  ∃ field, s.fields.find? (·.name == member.1) = some field ∧ field.isSet draft = false ∧
    Spells (field.read draft) member.2 draft'

/-- The members turn the draft into the other, one after the other. -/
inductive Fills (s : Schema σ α) : σ → List Member → σ → Prop where
  | nil {draft : σ} : Fills s draft [] draft
  | cons {draft mid draft' : σ} {member : Member} {members : List Member}
      (hmember : s.Takes draft member mid) (hmembers : Fills s mid members draft') :
      Fills s draft (member :: members) draft'

variable {s : Schema σ α} {draft draft' : σ} {first : Bool} {text rest value gap : List Char}
  {field : Field σ} {a : α}

/-! ### Reading an object -/

theorem Body.endsValue (h : s.Body false draft text draft') : EndsValue (text ++ rest) := by
  cases h with
  | close hblanks =>
    rw [List.append_assoc]
    exact .of_append hblanks (by simp [EndsValue, endsValue])
  | next hbefore _ _ _ =>
    rw [List.append_assoc]
    exact .of_append hbefore (by simp [EndsValue, endsValue])

/-- An object is read to the draft that its body ends in. -/
theorem Body.members_eq {fuel : Nat} (h : s.Body first draft text draft')
    (hfuel : text.length < fuel) :
    s.members fuel first draft (text ++ rest) = s.close draft' rest := by
  -- a member has at least its opening quote, so the length bounds the steps
  induction h generalizing fuel with
  | close hblanks =>
    obtain ⟨fuel, rfl⟩ := Nat.exists_eq_add_one_of_ne_zero (Nat.ne_zero_of_lt hfuel)
    unfold members
    rw [List.append_assoc, List.singleton_append, skipBlanks_append hblanks (by decide)]
    rfl
  | first hblanks hmember htext ih =>
    obtain ⟨fuel, rfl⟩ := Nat.exists_eq_add_one_of_ne_zero (Nat.ne_zero_of_lt hfuel)
    simp only [List.length_append, List.length_cons] at hfuel
    unfold members
    rw [List.append_assoc, List.cons_append, skipBlanks_append hblanks (by decide),
      List.append_assoc]
    simp only [hmember _ htext.endsValue]
    exact ih (by omega)
  | next hbefore hafter hmember htext ih =>
    obtain ⟨fuel, rfl⟩ := Nat.exists_eq_add_one_of_ne_zero (Nat.ne_zero_of_lt hfuel)
    simp only [List.length_append, List.length_cons] at hfuel
    unfold members
    rw [List.append_assoc, List.cons_append, skipBlanks_append hbefore (by decide)]
    have hquote : isBlank '"' = false := by decide
    simp only [List.append_assoc, List.cons_append, skipBlanks_append hafter hquote,
      hmember _ htext.endsValue]
    exact ih (by omega)

theorem read_object (hblanks : AllBlank blanks) (hbody : s.Body true s.empty text draft) :
    s.read (blanks ++ '\x7b' :: (text ++ rest)) = s.close draft rest := by
  have hfuel : text.length < (text ++ rest).length + 1 := by
    rw [List.length_append]
    omega
  unfold read
  rw [onFirst_eq hblanks (by decide), if_neg (by decide), if_pos rfl]
  exact hbody.members_eq hfuel

/-! ### Writing an object -/

theorem find?_name_eq {fields : List (Field σ)} (hnames : (fields.map (·.name)).Nodup)
    (hfield : field ∈ fields) : fields.find? (·.name == field.name) = some field := by
  induction fields with
  | nil => simp at hfield
  | cons first fields ih =>
    rw [List.map_cons, List.nodup_cons] at hnames
    rcases List.mem_cons.1 hfield with rfl | hfield
    · simp
    · have hne : first.name ≠ field.name := fun h =>
        hnames.1 (h ▸ List.mem_map_of_mem hfield)
      simpa [hne] using ih hnames.2 hfield

theorem Takes.ofOption {β : Type} {name : String} {get : σ → Option β} {set : σ → β → σ}
    {reader : Reader β} {b : β} (hnames : (s.fields.map (·.name)).Nodup) (i : Nat)
    (hfield : s.fields[i]? = some (.ofOption name get set reader)) (hget : get draft = none)
    (hvalue : Spells reader value b) : s.Takes draft (name, value) (set draft b) := by
  refine ⟨_, find?_name_eq hnames (List.mem_of_getElem? hfield), ?_, hvalue.ofOption draft⟩
  simp [Field.ofOption, hget]

theorem Takes.turns {member : Member} (h : s.Takes draft member draft') (hgap : AllBlank gap) :
    s.Turns draft (member.1.toList.flatMap writeChar ++ '"' :: ':' :: (gap ++ member.2))
      draft' := by
  obtain ⟨field, hfind, hset, hvalue⟩ := h
  intro rest hrest
  have hcolon : colon (':' :: (gap ++ (member.2 ++ rest))) = .ok ((), gap ++ (member.2 ++ rest)) :=
    colon_append (show AllBlank [] by decide)
  simp only [List.append_assoc, List.cons_append, Schema.member, string_escaped,
    bind, Except.bind, String.ofList_toList, hfind, hset, Bool.false_eq_true, if_false, hcolon]
  exact hvalue gap rest hgap hrest

theorem Fills.body {members : List Member} (h : s.Fills draft members draft') (l : Layout) :
    s.Body false draft (members.flatMap (fun member => ',' :: l.newline ++ l.writeMember member) ++
      (l.newline ++ ['\x7d'])) draft' := by
  induction h with
  | nil => exact .close l.newline_blank
  | cons hmember _ ih =>
    have hbefore : AllBlank [] := by decide
    have hafter := l.newline_blank.append l.indent_blank
    simpa [Layout.writeMember_eq] using Body.next hbefore hafter (hmember.turns l.gap_blank) ih

theorem Fills.object {members : List Member} (h : s.Fills draft members draft') (l : Layout) :
    ∃ text, l.write members = '\x7b' :: text ∧ s.Body true draft text draft' := by
  refine ⟨_, rfl, ?_⟩
  cases h with
  | nil =>
    have hclose : s.Body true draft _ draft := .close (l.newline_blank.append l.newline_blank)
    simpa using hclose
  | cons hmember hmembers =>
    rw [List.map_cons, intercalate_cons, List.flatMap_map]
    have hblanks := l.newline_blank.append l.indent_blank
    simpa [Layout.writeMember_eq] using
      Body.first hblanks (hmember.turns l.gap_blank) (hmembers.body l)

theorem read_write {members : List Member} (h : s.Fills s.empty members draft)
    (hfinish : s.finish draft = .ok a) (hblanks : AllBlank blanks) (l : Layout) :
    s.read (blanks ++ (l.write members ++ rest)) = .ok (a, rest) := by
  obtain ⟨text, hwrite, hbody⟩ := h.object l
  rw [hwrite, List.cons_append, read_object hblanks hbody, close, hfinish]

/-- A record is read back from the values written for its fields. -/
theorem decode_write {members : List Member} (h : s.Fills s.empty members draft)
    (hfinish : s.finish draft = .ok a) (l : Layout) :
    decode s.read (String.ofList (l.write members)) = .ok a := by
  have hread : s.read ([] ++ (l.write members ++ [])) = .ok (a, []) :=
    read_write h hfinish (by decide) l
  rw [List.nil_append, List.append_nil] at hread
  unfold decode whole
  rw [String.toList_ofList, hread]
  rfl

end Schema

end LoadGenerator.Json
