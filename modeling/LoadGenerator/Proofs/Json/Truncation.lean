import LoadGenerator.Proofs.Json.Objects
import Mathlib.Data.List.TakeWhile

/-!
# Texts that break off

When a text is cut off, a reader runs out of it (`RunsOut`), or what is left is a value of its own,
as the first digits of a count are, and nothing is left over (`UsesUp`). In both cases the end of
the text is what is met next. So an object that is cut off anywhere before its closing brace is
never read, and the fault that is told is the end of the text, at its very end
(`Schema.Fills.read_cut`, `decode_cut`). After an object as a whole there may be nothing but blanks
(`decode_extended`).
-/

namespace LoadGenerator.Json

/-- The text ended while something was read. -/
def RunsOut {β : Type} (result : Except Failure β) : Prop :=
  ∃ inside touched, result = .error ⟨.endOfText inside, [], touched⟩

/-- The text ended while something was read, or when all of it had been. -/
def UsesUp {β : Type} (result : Except Failure (β × List Char)) : Prop :=
  RunsOut result ∨ ∃ b, result = .ok (b, [])

/-- However much of the text is cut off, the reader uses up the rest. -/
def SafelyCut {β : Type} (reader : Reader β) (text : List Char) : Prop :=
  ∀ part, part <+: text → ∀ blanks, AllBlank blanks → UsesUp (reader (blanks ++ part))

variable {blanks part text : List Char} {c : Char}

theorem prefix_append_cases {α : Type} {l a b : List α} (h : l <+: a ++ b) :
    l <+: a ∨ ∃ l', l' <+: b ∧ l = a ++ l' := by
  rcases List.prefix_or_prefix_of_prefix h (List.prefix_append a b) with ha | ⟨l', rfl⟩
  · exact .inl ha
  · exact .inr ⟨l', (List.prefix_append_right_inj a).1 h, rfl⟩

theorem prefix_cons_append_cases {α : Type} {l a b : List α} {x : α} (h : l <+: a ++ x :: b) :
    l <+: a ∨ ∃ l', l' <+: b ∧ l = a ++ x :: l' := by
  rcases prefix_append_cases h with ha | ⟨l', hl', rfl⟩
  · exact .inl ha
  · rcases List.prefix_cons_iff.1 hl' with rfl | ⟨tail, rfl, htail⟩
    · exact .inl (by simp)
    · exact .inr ⟨tail, htail, rfl⟩

theorem prefix_of_ne_concat {α : Type} {l a : List α} {x : α} (h : l <+: a ++ [x])
    (hne : l ≠ a ++ [x]) : l <+: a := by
  rcases List.prefix_concat_iff.1 h with heq | ha
  · exact absurd heq hne
  · exact ha

theorem AllBlank.of_start (h : AllBlank blanks) (hpart : part <+: blanks) : AllBlank part :=
  fun c hc => h c (hpart.subset hc)

theorem AllBlank.skipBlanks (h : AllBlank blanks) : skipBlanks blanks = [] := by
  rw [← List.append_nil blanks]
  exact List.dropWhile_append_of_pos h

theorem EndsValue.of_start (h : EndsValue text) (hpart : part <+: text) : EndsValue part := by
  obtain ⟨rest, rfl⟩ := hpart
  intro d hd
  cases part with
  | nil => cases hd
  | cons c part => exact h d hd

theorem RunsOut.bind {β γ : Type} {result : Except Failure β} (h : RunsOut result)
    (next : β → Except Failure γ) : RunsOut (result >>= next) := by
  obtain ⟨inside, touched, rfl⟩ := h
  exact ⟨inside, touched, rfl⟩

theorem UsesUp.bind {β γ : Type} {result : Except Failure (β × List Char)}
    {next : β × List Char → Except Failure (γ × List Char)} (h : UsesUp result)
    (hnext : ∀ b, UsesUp (next (b, []))) : UsesUp (result >>= next) := by
  rcases h with h | ⟨b, rfl⟩
  · exact .inl (h.bind next)
  · exact hnext b

theorem SafelyCut.bind {β γ : Type} {reader : Reader β} {f : β → γ} (h : SafelyCut reader text) :
    SafelyCut (fun cs => do let (b, cs) ← reader cs; .ok (f b, cs)) text :=
  fun part hpart blanks hblanks => (h part hpart blanks hblanks).bind fun b => .inr ⟨f b, rfl⟩

theorem safelyCut_onFirst {β : Type} {reader : Char → Reader β} (hc : isBlank c = false)
    (h : ∀ part, part <+: text → UsesUp (reader c part)) :
    SafelyCut (onFirst reader) (c :: text) := by
  intro part hpart blanks hblanks
  rcases List.prefix_cons_iff.1 hpart with rfl | ⟨rest, rfl, hrest⟩
  · left
    refine ⟨.value, 1, ?_⟩
    unfold onFirst
    rw [List.append_nil, hblanks.skipBlanks]
    rfl
  · rw [onFirst_eq hblanks hc]
    exact h rest hrest

/-! ### Values -/

theorem runsOut_nil : RunsOut (string []) :=
  ⟨.string, 0, by unfold string; rfl⟩

theorem string_code_short {digits : List Char} (h : digits.length < 4) :
    string ('\\' :: 'u' :: digits) = failHex digits := by
  conv_lhs => unfold string
  obtain _ | ⟨_, _ | ⟨_, _ | ⟨_, _ | ⟨_, digits⟩⟩⟩⟩ := digits
  · simp
  · simp
  · simp
  · simp
  · simp only [List.length_cons] at h
    omega

theorem byteLength_le_of_ascii (h : ∀ c ∈ text, c.utf8Size = 1) :
    Text.byteLength text = text.length := by
  induction text with
  | nil => rfl
  | cons c text ih =>
    rw [Text.byteLength_cons, h c List.mem_cons_self,
      ih fun d hd => h d (List.mem_cons_of_mem _ hd), List.length_cons, Nat.add_comm]

/-- A string that breaks off inside what is written for a character. -/
theorem runsOut_writeChar (hpart : part <+: writeChar c) (hne : part ≠ writeChar c) :
    RunsOut (string part) := by
  have hbackslash : RunsOut (string ['\\']) := ⟨.string, 0, by unfold string; rfl⟩
  rcases writeChar_cases c with ⟨e, -, hwrite⟩ | ⟨hlt, hwrite⟩ | ⟨-, -, -, hwrite⟩
  · rw [hwrite] at hpart hne
    simp only [List.prefix_cons_iff, List.prefix_nil] at hpart
    rcases hpart with rfl | ⟨_, rfl, rfl | ⟨_, rfl, rfl⟩⟩
    · exact runsOut_nil
    · exact hbackslash
    · exact absurd rfl hne
  · rw [hwrite] at hpart hne
    rcases List.prefix_cons_iff.1 hpart with rfl | ⟨code, rfl, hcode⟩
    · exact runsOut_nil
    rcases List.prefix_cons_iff.1 hcode with rfl | ⟨digits, rfl, hdigits⟩
    · exact hbackslash
    have hshort : digits.length < 4 := by
      refine Nat.lt_of_le_of_ne hdigits.length_le fun hlength => hne ?_
      rw [hdigits.eq_of_length hlength]
    have hascii : ∀ d ∈ digits, d.utf8Size = 1 := by
      intro d hd
      have hdigit : ∀ n < 16, (Nat.digitChar n).utf8Size = 1 := by decide
      have hmem := hdigits.subset hd
      simp only [List.mem_cons, List.not_mem_nil, or_false] at hmem
      rcases hmem with rfl | rfl | rfl | rfl
      · rfl
      · rfl
      · exact hdigit _ (by omega)
      · exact hdigit _ (by omega)
    rw [string_code_short hshort]
    exact ⟨.string, 0, if_pos (by rwa [byteLength_le_of_ascii hascii])⟩
  · rw [hwrite] at hpart hne
    rcases List.prefix_cons_iff.1 hpart with rfl | ⟨_, rfl, hnil⟩
    · exact runsOut_nil
    · rw [List.prefix_nil.1 hnil] at hne
      exact absurd rfl hne

/-- A string whose closing quote is missing. -/
theorem runsOut_string {s : List Char} (hpart : part <+: s.flatMap writeChar) :
    RunsOut (string part) := by
  induction s generalizing part with
  | nil =>
    rw [List.prefix_nil.1 hpart]
    exact runsOut_nil
  | cons c s ih =>
    rw [List.flatMap_cons] at hpart
    rcases prefix_append_cases hpart with hpart | ⟨rest, hrest, rfl⟩
    · by_cases hwhole : part = writeChar c
      · obtain ⟨inside, touched, h⟩ := ih List.nil_prefix
        refine ⟨inside, touched, ?_⟩
        rw [hwhole, ← List.append_nil (writeChar c), string_writeChar, h]
        rfl
      · exact runsOut_writeChar hpart hwhole
    · obtain ⟨inside, touched, h⟩ := ih hrest
      refine ⟨inside, touched, ?_⟩
      rw [string_writeChar, h]
      rfl

theorem string_cut {s : List Char} (hpart : part <+: s.flatMap writeChar ++ ['"']) :
    RunsOut (string part) ∨ string part = .ok (s, []) := by
  rcases prefix_append_cases hpart with hpart | ⟨rest, hrest, rfl⟩
  · exact .inl (runsOut_string hpart)
  · rcases List.prefix_cons_iff.1 hrest with rfl | ⟨_, rfl, hnil⟩
    · rw [List.append_nil]
      exact .inl (runsOut_string (List.prefix_refl _))
    · rw [List.prefix_nil.1 hnil]
      exact .inr (string_escaped s [])

theorem safelyCut_string (s : String) : SafelyCut stringValue (writeString s.toList) := by
  have htext : SafelyCut (Json.text "a string") (writeString s.toList) :=
    safelyCut_onFirst (by decide) fun part hpart => by
      rw [if_pos rfl]
      exact (string_cut hpart).imp_right fun h => ⟨s.toList, h⟩
  exact htext.bind

theorem safelyCut_variant {β : Type} {known : List (String × β)} {name : String} {b : β}
    (h : known.lookup name = some b) :
    SafelyCut (enumeration known) (writeString name.toList) := by
  refine safelyCut_onFirst (by decide) fun part hpart => ?_
  rw [if_neg (by decide), if_pos rfl]
  rcases string_cut hpart with hstring | hstring
  · exact .inl (hstring.bind _)
  · right
    refine ⟨b, ?_⟩
    rw [hstring]
    show variant known name.toList [] = .ok (b, [])
    unfold variant
    rw [String.ofList_toList, h]

/-- The first digits of a count are a count, if there is any. -/
theorem safelyCut_count (n : UInt64) : SafelyCut count (writeCount n) := by
  intro part hpart blanks hblanks
  by_cases hnil : part = []
  · left
    refine ⟨.value, 1, ?_⟩
    unfold count numberValue onFirst
    rw [hnil, List.append_nil, hblanks.skipBlanks]
    rfl
  · right
    have hwrite := Numeral.eq_write_of_plain (Numeral.isPlain_write.of_start hpart hnil)
    have hle : Numeral.valueFrom 0 part ≤ _ := Numeral.valueFrom_le_of_start hpart
    rw [writeCount, Numeral.valueFrom_write] at hle
    generalize Numeral.valueFrom 0 part = m at hwrite hle
    have hm : (UInt64.ofNat m).toNat = m :=
      UInt64.toNat_ofNat_of_lt' (Nat.lt_of_le_of_lt hle n.toNat_lt_size)
    refine ⟨UInt64.ofNat m, ?_⟩
    have hread := spells_count (UInt64.ofNat m) blanks [] hblanks (by simp [EndsValue])
    rwa [writeCount, hm, List.append_nil, ← hwrite] at hread

/-! ### Objects -/

namespace Layout

/-- A member after its opening quote. -/
def unquoted (l : Layout) (member : Member) : List Char :=
  member.1.toList.flatMap writeChar ++ '"' :: ':' :: (l.gap ++ member.2)

/-- The rest of an object after one of its members, with those that are still to come. -/
def following (l : Layout) (members : List Member) : List Char :=
  members.flatMap (fun member => ',' :: l.newline ++ l.writeMember member) ++
    (l.newline ++ ['\x7d'])

theorem following_nil (l : Layout) : l.following [] = l.newline ++ ['\x7d'] := by
  simp [following]

theorem following_cons (l : Layout) (member : Member) (members : List Member) :
    l.following (member :: members) =
      ',' :: (l.newline ++ l.indent ++ '"' :: (l.unquoted member ++ l.following members)) := by
  simp [following, unquoted, writeMember_eq]

theorem write_nil (l : Layout) : l.write [] = '\x7b' :: (l.newline ++ l.following []) := by
  simp [write, following]

theorem write_cons (l : Layout) (member : Member) (members : List Member) :
    l.write (member :: members) =
      '\x7b' :: (l.newline ++ l.indent ++ '"' :: (l.unquoted member ++ l.following members)) := by
  rw [write, List.map_cons, intercalate_cons, List.flatMap_map]
  simp [following, unquoted, writeMember_eq]

theorem endsValue_following (l : Layout) (members : List Member) :
    EndsValue (l.following members) := by
  cases members with
  | nil =>
    rw [following_nil]
    exact .of_append l.newline_blank (by simp [EndsValue, endsValue])
  | cons member members =>
    rw [following_cons]
    simp [EndsValue, endsValue]

end Layout

namespace Schema

variable {σ α : Type} {s : Schema σ α} {draft draft' : σ} {l : Layout} {member : Member}
  {members : List Member} {a : α}

/-- The value of the member is for the field that the key names, and may be cut off. -/
def CutsMember (s : Schema σ α) (member : Member) : Prop :=
  ∀ field draft, s.fields.find? (·.name == member.1) = some field →
    SafelyCut (field.read draft) member.2

theorem Takes.member_cut (h : s.Takes draft member draft') (hcut : s.CutsMember member)
    (hpart : part <+: l.unquoted member) : UsesUp (s.member draft part) := by
  obtain ⟨field, hfind, hset, -⟩ := h
  rcases prefix_append_cases hpart with hkey | ⟨after, hafter, rfl⟩
  · exact .inl ((runsOut_string hkey).bind _)
  rcases List.prefix_cons_iff.1 hafter with rfl | ⟨tail, rfl, htail⟩
  · rw [List.append_nil]
    exact .inl ((runsOut_string (List.prefix_refl _)).bind _)
  simp only [Schema.member, string_escaped, bind, Except.bind, String.ofList_toList, hfind, hset,
    Bool.false_eq_true, if_false]
  rcases List.prefix_cons_iff.1 htail with rfl | ⟨rest, rfl, hrest⟩
  · exact .inl ⟨.object, 1, rfl⟩
  have hcolon : colon (':' :: rest) = .ok ((), rest) := colon_append (show AllBlank [] by decide)
  rw [hcolon]
  rcases prefix_append_cases hrest with hblanks | ⟨value, hvalue, rfl⟩
  · have hread := hcut field draft hfind [] List.nil_prefix rest (l.gap_blank.of_start hblanks)
    rwa [List.append_nil] at hread
  · exact hcut field draft hfind value hvalue l.gap l.gap_blank

theorem runsOut_members (hblanks : AllBlank part) (fuel : Nat) (first : Bool) (draft : σ) :
    RunsOut (s.members (fuel + 1) first draft part) := by
  refine ⟨.object, 1, ?_⟩
  unfold members
  rw [hblanks.skipBlanks]
  rfl

/-- What breaks off after the opening quote of a member breaks off in that member or after it. -/
theorem Takes.bind_member_cut (h : s.Takes draft member draft') (hcut : s.CutsMember member)
    (hpart : part <+: l.unquoted member ++ l.following members)
    (hne : part ≠ l.unquoted member ++ l.following members) {fuel : Nat}
    (hfuel : part.length < fuel)
    (hnext : ∀ after, after <+: l.following members → after ≠ l.following members →
      after.length < fuel → RunsOut (s.members fuel false draft' after)) :
    RunsOut (s.member draft part >>= fun (draft, cs) => s.members fuel false draft cs) := by
  obtain ⟨more, rfl⟩ := Nat.exists_eq_add_one_of_ne_zero (Nat.ne_zero_of_lt hfuel)
  rcases prefix_append_cases hpart with hmember | ⟨after, hafter, rfl⟩
  · rcases h.member_cut hcut hmember with hout | ⟨mid, hok⟩
    · exact hout.bind _
    · rw [hok]
      exact runsOut_members (s := s) (show AllBlank [] by decide) more false mid
  · have hread := h.turns l.gap_blank after ((l.endsValue_following members).of_start hafter)
    rw [Layout.unquoted, hread]
    refine hnext after hafter (fun heq => hne (by rw [heq])) ?_
    rw [List.length_append] at hfuel
    omega

/-- What follows a member is cut off inside the last line, or it is one more member. -/
theorem Fills.members_cut (h : s.Fills draft members draft')
    (hcut : ∀ member ∈ members, s.CutsMember member) (hpart : part <+: l.following members)
    (hne : part ≠ l.following members) {fuel : Nat} (hfuel : part.length < fuel) :
    RunsOut (s.members fuel false draft part) := by
  induction h generalizing part fuel with
  | nil =>
    obtain ⟨fuel, rfl⟩ := Nat.exists_eq_add_one_of_ne_zero (Nat.ne_zero_of_lt hfuel)
    rw [Layout.following_nil] at hpart hne
    exact runsOut_members (l.newline_blank.of_start (prefix_of_ne_concat hpart hne)) _ _ _
  | @cons draft mid draft' member members hmember _ ih =>
    obtain ⟨fuel, rfl⟩ := Nat.exists_eq_add_one_of_ne_zero (Nat.ne_zero_of_lt hfuel)
    rw [Layout.following_cons] at hpart hne
    rcases List.prefix_cons_iff.1 hpart with rfl | ⟨tail, rfl, htail⟩
    · exact runsOut_members (show AllBlank [] by decide) _ _ _
    have hblanks := l.newline_blank.append l.indent_blank
    have hcomma : skipBlanks (',' :: tail) = ',' :: tail := by
      unfold skipBlanks
      exact List.dropWhile_cons_of_neg (by decide)
    unfold Schema.members
    simp only [hcomma]
    rcases prefix_cons_append_cases htail with hstart | ⟨after, hafter, rfl⟩
    · exact ⟨.value, 1, by rw [(hblanks.of_start hstart).skipBlanks]; rfl⟩
    · simp only [skipBlanks_append hblanks (show isBlank '"' = false by decide)]
      refine hmember.bind_member_cut (hcut _ List.mem_cons_self) hafter
        (fun heq => hne (by rw [heq])) ?_ fun rest hrest hne hfuel =>
          ih (fun m hm => hcut m (List.mem_cons_of_mem _ hm)) hrest hne hfuel
      simp only [List.length_cons, List.length_append] at hfuel
      omega

/-- An object that is cut off is not read. -/
theorem Fills.read_cut (h : s.Fills s.empty members draft')
    (hcut : ∀ member ∈ members, s.CutsMember member) (hpart : part <+: l.write members)
    (hne : part ≠ l.write members) : RunsOut (s.read part) := by
  -- the text after the opening brace, if that is left
  have hopen : ∀ text, (∀ tail, tail <+: text → tail ≠ text →
      RunsOut (s.members (tail.length + 1) true s.empty tail)) →
      part <+: '\x7b' :: text → part ≠ '\x7b' :: text → RunsOut (s.read part) := by
    intro text htext hpart hne
    rcases List.prefix_cons_iff.1 hpart with rfl | ⟨tail, rfl, htail⟩
    · exact ⟨.value, 1, rfl⟩
    · exact htext tail htail fun heq => hne (by rw [heq])
  cases h with
  | nil =>
    rw [Layout.write_nil, Layout.following_nil, ← List.append_assoc] at hpart hne
    refine hopen _ (fun tail htail hne => ?_) hpart hne
    have hblanks := l.newline_blank.append l.newline_blank
    exact runsOut_members (hblanks.of_start (prefix_of_ne_concat htail hne)) _ _ _
  | cons hmember hmembers =>
    rw [Layout.write_cons] at hpart hne
    refine hopen _ (fun tail htail hne => ?_) hpart hne
    have hblanks := l.newline_blank.append l.indent_blank
    rcases prefix_cons_append_cases htail with hstart | ⟨after, hafter, rfl⟩
    · exact runsOut_members (hblanks.of_start hstart) _ _ _
    · unfold Schema.members
      simp only [skipBlanks_append hblanks (show isBlank '"' = false by decide)]
      refine hmember.bind_member_cut (hcut _ List.mem_cons_self) hafter
        (fun heq => hne (by rw [heq])) ?_ fun rest hrest hne hfuel =>
          hmembers.members_cut (fun m hm => hcut m (List.mem_cons_of_mem _ hm)) hrest hne hfuel
      simp only [List.length_cons, List.length_append]
      omega

end Schema

/-! ### Whole texts -/

theorem Position.advance_of_le {bytes : Nat} (h : Text.byteLength text ≤ bytes) (p : Position) :
    p.advance text bytes = p.advance text (Text.byteLength text) := by
  induction text generalizing bytes p with
  | nil => rfl
  | cons c text ih =>
    rw [Text.byteLength_cons] at h ⊢
    have hbytes : ¬ bytes < c.utf8Size := by omega
    have hlength : ¬ c.utf8Size + Text.byteLength text < c.utf8Size := by omega
    have hrest : c.utf8Size + Text.byteLength text - c.utf8Size = Text.byteLength text := by omega
    have hle : Text.byteLength text ≤ bytes - c.utf8Size := by omega
    simp only [advance, if_neg hbytes, if_neg hlength, hrest, ih hle]

/-- The end of the text is told where it is. -/
theorem decode_cut {β : Type} {reader : Reader β} {cut : String} (h : RunsOut (reader cut.toList)) :
    ∃ inside, decode reader cut = .error ⟨.endOfText inside,
      Position.after cut.toList (Text.byteLength cut.toList)⟩ := by
  obtain ⟨inside, touched, h⟩ := h
  refine ⟨inside, ?_⟩
  have hplace := Position.advance_of_le (Nat.le_add_right (Text.byteLength cut.toList) touched) {}
  simp only [decode, whole, h, bind, Except.bind, Except.mapError, Failure.toError,
    Text.byteLength_nil, Nat.sub_zero, Position.after, hplace]

theorem decode_extended {β : Type} {reader : Reader β} {b : β} {file : String} {extra : List Char}
    (h : reader file.toList = .ok (b, extra)) (hextra : ∃ c ∈ extra, isBlank c = false) :
    ∃ position, decode reader file = .error ⟨.trailingCharacters, position⟩ := by
  obtain ⟨c, hc, hblank⟩ := hextra
  have hne : skipBlanks extra ≠ [] := by
    intro hnil
    have hall := List.dropWhile_eq_nil_iff.1 hnil c hc
    rw [hall] at hblank
    cases hblank
  obtain ⟨d, rest, hskip⟩ := List.exists_cons_of_ne_nil hne
  simp only [decode, whole, h, bind, Except.bind, hskip, Except.mapError, Failure.toError]
  exact ⟨_, rfl⟩

end LoadGenerator.Json
