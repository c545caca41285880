import LoadGenerator.Proofs.Json.Agreement
import LoadGenerator.Proofs.Json.Spellings

/-!
# Records as they may be written

An object with any layout is read to the draft in which its members have set their fields, those
that nobody knows passed over (`Schema.read_members`), and a list to the draft in which the first
fields are set (`Schema.read_elements`). If an object names a field twice, then whatever its values
are, it is not read (`Schema.Careful.read_twice`): each value is either refused or read to its end.
-/

namespace LoadGenerator.Json.Schema

variable {σ α : Type} {s : Schema σ α} {draft draft' : σ} {first : Bool} {member : KeyValue}
  {members : List KeyValue} {blanks text part rest : List Char} {field : Field σ} {a : α}

/-! ### Objects -/

/-- A member sets a field that the draft lacks, or it has a key that nobody knows. -/
inductive Accepts (s : Schema σ α) : σ → KeyValue → σ → Prop where
  | sets {draft draft' : σ} {field : Field σ} {key value : List Char}
      (hfield : s.fields.find? (·.name == field.name) = some field)
      (hkey : Denotes key field.name.toList) (hset : field.isSet draft = false)
      (hvalue : Spells (field.read draft) value draft') : Accepts s draft (key, value) draft'
  | passes {draft : σ} {key value : List Char} {name : String}
      (hname : s.fields.find? (·.name == name) = none) (hkey : Denotes key name.toList)
      (hvalue : IsValue value) : Accepts s draft (key, value) draft

/-- The members turn the draft into the other, one after the other. -/
inductive AcceptsAll (s : Schema σ α) : σ → List KeyValue → σ → Prop where
  | nil {draft : σ} : AcceptsAll s draft [] draft
  | cons {draft mid draft' : σ} {member : KeyValue} {members : List KeyValue}
      (hmember : s.Accepts draft member mid) (hmembers : AcceptsAll s mid members draft') :
      AcceptsAll s draft (member :: members) draft'

theorem Accepts.turns (h : s.Accepts draft member draft') (hpart : IsMember member part) :
    s.Turns draft part draft' := by
  obtain ⟨before, after, hbefore, hafter, rfl⟩ := hpart
  intro rest hrest
  cases h with
  | sets hfield hkey hset hvalue =>
    simp only [List.append_assoc, List.cons_append, Schema.member, hkey.string_eq, bind,
      Except.bind, String.ofList_toList, hfield, hset, Bool.false_eq_true, if_false,
      colon_append hbefore]
    exact hvalue after rest hafter hrest
  | passes hname hkey hvalue =>
    simp only [List.append_assoc, List.cons_append, Schema.member, hkey.string_eq, bind,
      Except.bind, String.ofList_toList, hname, colon_append hbefore, hvalue.skip_eq hafter hrest]

theorem AcceptsAll.body (h : s.AcceptsAll draft members draft')
    (htext : Members first members text) : s.Body first draft text draft' := by
  induction htext generalizing draft with
  | close hblanks =>
    cases h
    exact .close hblanks
  | first hblanks hpart _ ih =>
    obtain ⟨part, rfl, hpart⟩ := hpart
    cases h with
    | cons hmember hmembers => exact .first hblanks (hmember.turns hpart) (ih hmembers)
  | next hbefore hafter hpart _ ih =>
    obtain ⟨part, rfl, hpart⟩ := hpart
    cases h with
    | cons hmember hmembers => exact .next hbefore hafter (hmember.turns hpart) (ih hmembers)

/-- An object is read to the draft that its members lead to. -/
theorem read_members (htext : Members true members text) (h : s.AcceptsAll s.empty members draft)
    (hblanks : AllBlank blanks) :
    s.read (blanks ++ '\x7b' :: (text ++ rest)) = s.close draft rest :=
  read_object hblanks (h.body htext)

/-! ### Lists -/

/-- The values are those of the first fields in their order. -/
inductive FillsIn : List (Field σ) → σ → List (List Char) → σ → Prop where
  | nil {fields : List (Field σ)} {draft : σ} : FillsIn fields draft [] draft
  | cons {field : Field σ} {fields : List (Field σ)} {draft mid draft' : σ} {value : List Char}
      {values : List (List Char)} (hvalue : Spells (field.read draft) value mid)
      (hhead : IsValue value) (h : FillsIn fields mid values draft') :
      FillsIn (field :: fields) draft (value :: values) draft'

theorem elements_close (hblanks : AllBlank blanks) (hfinish : s.finish draft = .ok a)
    (index : Nat) (fields : List (Field σ)) :
    s.elements index fields draft (blanks ++ ']' :: rest) = .ok (a, rest) := by
  have hbracket : isBlank ']' = false := by decide
  cases fields with
  | nil =>
    simp only [elements, closeList, skipBlanks_append hblanks hbracket, close, hfinish, if_true]
  | cons => simp only [elements, shortList, skipBlanks_append hblanks hbracket, hfinish, if_true]

theorem elements_eq {fields : List (Field σ)} {values : List (List Char)} {index : Nat}
    (h : FillsIn fields draft values draft') (htext : Elements (index == 0) values text)
    (hfinish : s.finish draft' = .ok a) :
    s.elements index fields draft (text ++ rest) = .ok (a, rest) := by
  induction h generalizing index text with
  | nil =>
    generalize (index == 0) = first at htext
    cases htext with
    | close hblanks =>
      rw [List.append_assoc]
      exact elements_close hblanks hfinish index _
  | @cons field fields draft mid draft' value values hvalue hhead _ ih =>
    obtain ⟨c, cs, rfl, hc, hclose⟩ := hhead.head
    cases index with
    | zero =>
      cases htext with
      | @first _ _ blanks _ text hblanks hpart htext =>
        subst hpart
        have hread := hvalue [] (text ++ rest) (by decide) (htext.endsValue (by decide))
        rw [List.nil_append, List.cons_append] at hread
        simp only [elements, List.append_assoc, List.cons_append, skipBlanks_append hblanks hc,
          if_neg hclose, if_true, hread, bind, Except.bind]
        exact ih htext hfinish
    | succ index =>
      cases htext with
      | @next _ _ before after _ text hbefore hafter hpart htext =>
        subst hpart
        have hread := hvalue [] (text ++ rest) (by decide) (htext.endsValue (by decide))
        have hcomma : isBlank ',' = false := by decide
        rw [List.nil_append, List.cons_append] at hread
        simp only [elements, List.append_assoc, List.cons_append, skipBlanks_append hbefore hcomma,
          skipBlanks_append hafter hc, if_neg hclose, hread, bind, Except.bind]
        exact ih htext hfinish

theorem read_elements {values : List (List Char)} (h : FillsIn s.fields s.empty values draft)
    (htext : Elements true values text) (hfinish : s.finish draft = .ok a)
    (hblanks : AllBlank blanks) : s.read (blanks ++ '[' :: (text ++ rest)) = .ok (a, rest) := by
  unfold read
  rw [onFirst_eq hblanks (by decide), if_pos rfl]
  exact elements_eq h htext hfinish

/-! ### Fields that are named twice -/

/-- What the fields of a record have to keep for it to be told what an object sets twice. -/
structure Careful (s : Schema σ α) : Prop where
  names : (s.fields.map (·.name)).Nodup
  inStep : ∀ field ∈ s.fields, ∀ draft, InStep (field.read draft)
  sets : ∀ field ∈ s.fields, ∀ draft cs draft' rest, field.read draft cs = .ok (draft', rest) →
    field.isSet draft' = true ∧
      ∀ other ∈ s.fields, other.isSet draft = true → other.isSet draft' = true

theorem failDuplicate_ne_ok {name : String} {cs : List Char} :
    failDuplicate name cs ≠ .ok (a, rest) := by
  unfold failDuplicate
  split <;> exact nofun

/-- The field is set and named once more, or it is named twice. -/
def NamedAgain (field : Field σ) (draft : σ) (members : List KeyValue) : Prop :=
  field.isSet draft = true ∧ (∃ m ∈ members, Denotes m.1 field.name.toList) ∨
    ∃ m m', [m, m'].Sublist members ∧ Denotes m.1 field.name.toList ∧
      Denotes m'.1 field.name.toList

theorem NamedAgain.not_nil : ¬ NamedAgain field draft [] := by
  rintro (⟨-, m, hm, -⟩ | ⟨m, m', htwice, -⟩)
  · cases hm
  · cases htwice

theorem NamedAgain.step (h : NamedAgain field draft (member :: members))
    (hkeeps : field.isSet draft = true → field.isSet draft' = true)
    (hsets : Denotes member.1 field.name.toList →
      field.isSet draft = false ∧ field.isSet draft' = true) : NamedAgain field draft' members := by
  rcases h with ⟨hset, m, hm, hname⟩ | ⟨m, m', htwice, hname, hname'⟩
  · rcases List.mem_cons.1 hm with rfl | hm
    · rw [(hsets hname).1] at hset
      cases hset
    · exact .inl ⟨hkeeps hset, m, hm, hname⟩
  · cases htwice with
    | cons _ htwice => exact .inr ⟨m, m', htwice, hname, hname'⟩
    | cons_cons _ hrest =>
      exact .inl ⟨(hsets hname).2, m', List.singleton_sublist.1 hrest, hname'⟩

namespace Careful

/-- A member that is read is read to its end, and if it names a field, that has been set by it and
not before. -/
theorem member_cases (h : s.Careful) (hpart : IsMember member part) (hkey : IsBody member.1)
    (hvalue : IsValue member.2) (hrest : EndsValue rest) (draft : σ) :
    (∃ f, s.member draft (part ++ rest) = .error f) ∨
      ∃ draft', s.member draft (part ++ rest) = .ok (draft', rest) ∧
        (∀ other ∈ s.fields, other.isSet draft = true → other.isSet draft' = true) ∧
        ∀ field ∈ s.fields, Denotes member.1 field.name.toList →
          field.isSet draft = false ∧ field.isSet draft' = true := by
  cases hread : s.member draft (part ++ rest) with
  | error f => exact .inl ⟨f, rfl⟩
  | ok result =>
    obtain ⟨draft', rest'⟩ := result
    right
    obtain ⟨before, after, hbefore, hafter, rfl⟩ := hpart
    simp only [List.append_assoc, List.cons_append] at hread
    obtain ⟨key, cs, hstring, hmember⟩ := bind_eq_ok.1 hread
    obtain rfl := hkey.rest_eq hstring
    have hname : ∀ {field : Field σ}, Denotes member.1 field.name.toList →
        String.ofList key = field.name := by
      intro field hdenotes
      rw [hdenotes.string_eq] at hstring
      cases hstring
      exact String.ofList_toList
    simp only at hmember
    split at hmember
    · next hnone =>
      obtain ⟨_, cs, hcolon, hmember⟩ := bind_eq_ok.1 hmember
      obtain ⟨_, cs', hskip, hmember⟩ := bind_eq_ok.1 hmember
      rw [colon_append hbefore] at hcolon
      cases hcolon
      rw [hvalue.skip_eq hafter hrest] at hskip
      cases hskip
      cases hmember
      refine ⟨draft, rfl, fun _ _ hset => hset, fun field hfield hdenotes => ?_⟩
      rw [hname hdenotes, find?_name_eq h.names hfield] at hnone
      cases hnone
    · next found hfound =>
      split_ifs at hmember with hset
      · exact absurd hmember failDuplicate_ne_ok
      · obtain ⟨_, cs, hcolon, hmember⟩ := bind_eq_ok.1 hmember
        rw [colon_append hbefore] at hcolon
        cases hcolon
        have hmem := List.mem_of_find?_eq_some hfound
        obtain rfl := (h.inStep found hmem draft).rest_eq hvalue hafter hrest hmember
        obtain ⟨hsets, hkeeps⟩ := h.sets found hmem _ _ _ _ hmember
        refine ⟨draft', rfl, hkeeps, fun field hfield hdenotes => ?_⟩
        rw [hname hdenotes, find?_name_eq h.names hfield] at hfound
        cases hfound
        exact ⟨Bool.eq_false_iff.2 hset, hsets⟩

/-- What comes after a member that names a field once more is not read, or the member is not. -/
theorem bind_member_eq_error (h : s.Careful) (hfield : field ∈ s.fields)
    (hpart : IsMember member part) (hkey : IsBody member.1) (hvalue : IsValue member.2)
    (hrest : EndsValue rest) (hagain : NamedAgain field draft (member :: members))
    {next : σ → Reader α}
    (hnext : ∀ draft, NamedAgain field draft members → ∃ f, next draft rest = .error f) :
    ∃ f, (s.member draft (part ++ rest) >>= fun (draft, cs) => next draft cs) = .error f := by
  rcases h.member_cases hpart hkey hvalue hrest draft with
    ⟨f, hread⟩ | ⟨draft', hread, hkeeps, hsets⟩
  · rw [hread]
    exact ⟨f, rfl⟩
  · rw [hread]
    exact hnext draft' (hagain.step (hkeeps field hfield) (hsets field hfield))

/-- An object in which a field is named once more is not read, with whatever values. -/
theorem members_eq_error (h : s.Careful) (htext : Members first members text)
    (hkeys : ∀ member ∈ members, IsBody member.1) (hvalues : ∀ member ∈ members, IsValue member.2)
    (hfield : field ∈ s.fields) (hagain : NamedAgain field draft members) (fuel : Nat) :
    ∃ f, s.members fuel first draft (text ++ rest) = .error f := by
  induction htext generalizing draft fuel with
  | close => exact absurd hagain NamedAgain.not_nil
  | @first member members blanks part text hblanks hpart htext ih =>
    obtain ⟨part, rfl, hpart⟩ := hpart
    cases fuel with
    | zero => exact ⟨_, rfl⟩
    | succ fuel =>
      have hquote : isBlank '"' = false := by decide
      simp only [Schema.members, List.append_assoc, List.cons_append,
        skipBlanks_append hblanks hquote, if_true]
      refine h.bind_member_eq_error hfield hpart (hkeys _ List.mem_cons_self)
        (hvalues _ List.mem_cons_self) (htext.endsValue (by decide)) hagain fun draft hagain => ?_
      exact ih (fun m hm => hkeys m (List.mem_cons_of_mem _ hm))
        (fun m hm => hvalues m (List.mem_cons_of_mem _ hm)) hagain fuel
  | @next member members before after part text hbefore hafter hpart htext ih =>
    obtain ⟨part, rfl, hpart⟩ := hpart
    cases fuel with
    | zero => exact ⟨_, rfl⟩
    | succ fuel =>
      have hcomma : isBlank ',' = false := by decide
      have hquote : isBlank '"' = false := by decide
      simp only [Schema.members, List.append_assoc, List.cons_append,
        skipBlanks_append hbefore hcomma, skipBlanks_append hafter hquote, if_true]
      refine h.bind_member_eq_error hfield hpart (hkeys _ List.mem_cons_self)
        (hvalues _ List.mem_cons_self) (htext.endsValue (by decide)) hagain fun draft hagain => ?_
      exact ih (fun m hm => hkeys m (List.mem_cons_of_mem _ hm))
        (fun m hm => hvalues m (List.mem_cons_of_mem _ hm)) hagain fuel

theorem read_twice (h : s.Careful) (htext : Members true members text)
    (hkeys : ∀ member ∈ members, IsBody member.1) (hvalues : ∀ member ∈ members, IsValue member.2)
    (hfield : field ∈ s.fields) {m m' : KeyValue} (htwice : [m, m'].Sublist members)
    (hname : Denotes m.1 field.name.toList) (hname' : Denotes m'.1 field.name.toList)
    (hblanks : AllBlank blanks) :
    ∃ f, s.read (blanks ++ '\x7b' :: (text ++ rest)) = .error f := by
  unfold read
  rw [onFirst_eq hblanks (by decide), if_neg (by decide), if_pos rfl]
  exact h.members_eq_error htext hkeys hvalues hfield (.inr ⟨m, m', htwice, hname, hname'⟩) _

end Careful

end LoadGenerator.Json.Schema
