import LoadGenerator.Proofs.Config.Overrides
import LoadGenerator.Proofs.Json.Soundness

/-!
# The files that load

`Names` says of a text which fields of a configuration it names, and with what values. A file with
such a text loads to the defaults with these fields replaced (`Names.load`), and no other file loads
(`exists_names`): the readers take nothing else for a value, and an object names no field twice.
-/

namespace LoadGenerator

theorem FailurePolicy.name_of_lookup {name : String} {p : FailurePolicy}
    (h : FailurePolicy.known.lookup name = some p) : name = p.name := by
  obtain ⟨before, after, heq, -⟩ := List.lookup_eq_some_iff.1 h
  have hmem : (name, p) ∈ known := heq ▸ List.mem_append_right before List.mem_cons_self
  obtain ⟨q, -, hq⟩ := List.mem_map.1 hmem
  cases hq
  rfl

namespace Config

open Json

/-- The text names these fields with these values: it has an object with any layout in which each is
named once, or a list with the values of the first fields. -/
inductive Names : List Char → List Assignment → Prop where
  | object {before after text : List Char} {members : List KeyValue} {named : List Assignment}
      (hbefore : AllBlank before) (hafter : AllBlank after) (htext : Members true members text)
      (hassigns : Assigns members named) (hnames : (named.map Assignment.name).Nodup) :
      Names (before ++ '\x7b' :: (text ++ after)) named
  | list {before after text : List Char} {values : List (List Char)} {named : List Assignment}
      (hbefore : AllBlank before) (hafter : AllBlank after) (htext : Elements true values text)
      (hnames : named.map Assignment.name <+: fieldNames)
      (hvalues : List.Forall₂ Assignment.WrittenAs named values) :
      Names (before ++ '[' :: (text ++ after)) named

variable {a : Assignment} {named : List Assignment} {d d' : Draft} {c : Config}
  {cs rest text : List Char} {members : List KeyValue} {fields : List (Json.Field Draft)}
  {first : Bool}

theorem Names.nodup (h : Names text named) : (named.map Assignment.name).Nodup := by
  cases h with
  | object _ _ _ _ hnames => exact hnames
  | list _ _ _ hnames _ => exact hnames.sublist.nodup (by decide)

/-! ### What is named is loaded -/

theorem field_eq {field : Json.Field Draft} (hfield : field ∈ schema.fields)
    (hname : a.name = field.name) : a.field = field := by
  have hfound := Schema.find?_name_eq nodup_fields hfield
  rw [← hname, ← a.name_field, a.find?_field] at hfound
  exact Option.some.inj hfound

theorem exists_fields (hfields : fields ⊆ schema.fields)
    (h : named.map Assignment.name <+: fields.map (·.name)) :
    ∃ others, named.map Assignment.field ++ others = fields := by
  induction named generalizing fields with
  | nil => exact ⟨fields, rfl⟩
  | cons a named ih =>
    cases fields with
    | nil => cases List.prefix_nil.1 h
    | cons field fields =>
      obtain ⟨hname, hrest⟩ := List.cons_prefix_cons.1 h
      obtain ⟨others, hothers⟩ := ih (fun f hf => hfields (List.mem_cons_of_mem _ hf)) hrest
      refine ⟨others, ?_⟩
      rw [List.map_cons, List.cons_append, hothers, field_eq (hfields List.mem_cons_self) hname]

theorem Names.load (h : Names text named) :
    Config.load (.ok (String.ofList text).toUTF8) = .ok (named.foldl Assignment.apply {}) := by
  cases h with
  | object hbefore hafter htext hassigns hnames =>
    have hall := hassigns.acceptsAll (d := schema.empty) hnames fun a _ => by cases a <;> rfl
    refine load_of_read ((Schema.read_members htext hall hbefore).trans ?_) hafter
    show Except.ok (override {} _, _) = _
    rw [Assignment.override_foldl_put]
    rfl
  | list hbefore hafter htext hnames hvalues =>
    obtain ⟨others, hothers⟩ := exists_fields (List.Subset.refl _) (names_eq ▸ hnames)
    have hfills := fillsIn hvalues others schema.empty
    rw [hothers] at hfills
    refine load_of_read ((Schema.read_elements hfills htext rfl hbefore).trans ?_) hafter
    rw [Assignment.override_foldl_put]
    rfl

/-! ### What is loaded is named -/

/-- The fields are set by what is named, each for the first time. -/
structure Sets (d : Draft) (named : List Assignment) (d' : Draft) : Prop where
  names : (named.map Assignment.name).Nodup
  lacks : ∀ a ∈ named, a.field.isSet d = false
  draft : d' = named.foldl Assignment.put d

theorem Sets.nil : Sets d [] d :=
  ⟨List.nodup_nil, nofun, rfl⟩

theorem Sets.cons (hlacks : a.field.isSet d = false) (h : Sets (a.put d) named d') :
    Sets d (a :: named) d' := by
  have hset : ∀ b ∈ named, b.field.isSet d = false ∧ b.name ≠ a.name := by
    intro b hb
    have hput := h.lacks b hb
    rw [Assignment.isSet_put b.field_mem, b.name_field, Bool.or_eq_false_iff] at hput
    exact ⟨hput.1, fun heq => by simp [heq] at hput⟩
  refine ⟨List.nodup_cons.2 ⟨fun hmem => ?_, h.names⟩, ?_, h.draft⟩
  · obtain ⟨b, hb, hname⟩ := List.mem_map.1 hmem
    exact (hset b hb).2 hname
  · exact List.forall_mem_cons.2 ⟨hlacks, fun b hb => (hset b hb).1⟩

theorem field_sound {field : Json.Field Draft} (hfield : field ∈ schema.fields)
    (h : field.read d cs = .ok (d', rest)) :
    ∃ (a : Assignment) (blanks value : List Char), a.name = field.name ∧ d' = a.put d ∧
      AllBlank blanks ∧ a.WrittenAs value ∧ cs = blanks ++ (value ++ rest) := by
  simp only [schema, List.mem_cons, List.not_mem_nil, or_false] at hfield
  rcases hfield with rfl | rfl | rfl | rfl | rfl
  all_goals
    obtain ⟨found, mid, hread, hset⟩ := bind_eq_ok.1 h
    cases hset
  · obtain ⟨blanks, body, hblanks, hbody, rfl⟩ := stringValue_sound hread
    exact ⟨.target found, blanks, _, rfl, rfl, hblanks, ⟨body, hbody, rfl⟩, rfl⟩
  · obtain ⟨blanks, digits, hblanks, hplain, hvalue, rfl⟩ := count_sound hread
    exact ⟨.totalRequests found, blanks, _, rfl, rfl, hblanks, ⟨hplain, hvalue⟩, rfl⟩
  · obtain ⟨blanks, digits, hblanks, hplain, hvalue, rfl⟩ := count_sound hread
    exact ⟨.concurrency found, blanks, _, rfl, rfl, hblanks, ⟨hplain, hvalue⟩, rfl⟩
  · obtain ⟨blanks, digits, hblanks, hplain, hvalue, rfl⟩ := count_sound hread
    exact ⟨.queueCapacityMultiplier found, blanks, _, rfl, rfl, hblanks, ⟨hplain, hvalue⟩, rfl⟩
  · obtain ⟨blanks, name, body, value, hblanks, hknown, hbody, hvalue, rfl⟩ :=
      enumeration_sound hread
    obtain rfl := FailurePolicy.name_of_lookup hknown
    exact ⟨.failurePolicy found, blanks, value, rfl, rfl, hblanks, ⟨body, hbody, hvalue⟩, rfl⟩

/-- A member that is read is of the grammar: it names a field for the first time, or none. -/
theorem member_sound (h : schema.member d cs = .ok (d', rest)) :
    ∃ (member : KeyValue) (part : List Char), IsMember member part ∧ cs = part ++ rest ∧
      ((∃ a : Assignment, a.field.isSet d = false ∧ d' = a.put d ∧
          Denotes member.1 a.name.toList ∧ a.WrittenAs member.2) ∨
        d' = d ∧ ∃ name ∉ fieldNames, Denotes member.1 name.toList ∧ IsValue member.2) := by
  obtain ⟨key, afterKey, hkey, hread⟩ := bind_eq_ok.1 h
  obtain ⟨body, hbody, rfl⟩ := denotes_of_string hkey
  rw [← String.toList_ofList (l := key)] at hbody
  simp only at hread
  split at hread
  · next hnone =>
    obtain ⟨_, afterColon, hcolon, hread⟩ := bind_eq_ok.1 hread
    obtain ⟨_, afterValue, hskip, hend⟩ := bind_eq_ok.1 hread
    cases hend
    obtain ⟨before, hbefore, rfl⟩ := colon_sound hcolon
    obtain ⟨after, value, hafter, hvalue, rfl⟩ := skip_sound hskip
    refine ⟨(body, value), _, ⟨before, after, hbefore, hafter, rfl⟩, by simp,
      .inr ⟨rfl, String.ofList key, fun hmem => ?_, hbody, hvalue⟩⟩
    rw [← names_eq] at hmem
    obtain ⟨field, hfield, hname⟩ := List.mem_map.1 hmem
    exact List.find?_eq_none.1 hnone field hfield (beq_iff_eq.2 hname)
  · next field hfound =>
    split_ifs at hread with hset
    · exact absurd hread Schema.failDuplicate_ne_ok
    · obtain ⟨_, afterColon, hcolon, hvalue⟩ := bind_eq_ok.1 hread
      obtain ⟨before, hbefore, rfl⟩ := colon_sound hcolon
      have hfield := List.mem_of_find?_eq_some hfound
      obtain ⟨a, after, value, hname, rfl, hafter, hwritten, rfl⟩ := field_sound hfield hvalue
      refine ⟨(body, value), _, ⟨before, after, hbefore, hafter, rfl⟩, by simp,
        .inl ⟨a, ?_, rfl, ?_, hwritten⟩⟩
      · rw [field_eq hfield hname]
        exact Bool.eq_false_iff.2 hset
      · have hkeyName : field.name = String.ofList key := by simpa using List.find?_some hfound
        rw [hname, hkeyName]
        exact hbody

theorem members_sound {fuel : Nat} (h : schema.members fuel first d cs = .ok (c, rest)) :
    ∃ members text named d', Members first members text ∧ Assigns members named ∧
      Sets d named d' ∧ c = override {} d' ∧ cs = text ++ rest := by
  induction fuel generalizing first d cs with
  | zero => cases h
  | succ fuel ih =>
    unfold Schema.members at h
    split at h
    · cases h
    next ch tail hfirst =>
    obtain ⟨blanks, hblanks, rfl⟩ := exists_blanks_of_skipBlanks hfirst
    -- the member that is read, and the members after it
    have hnext : ∀ {tail}, (schema.member d tail >>= fun (d, cs) =>
        schema.members fuel false d cs) = .ok (c, rest) →
        ∃ member members part text named d', IsMember member part ∧ Members false members text ∧
          Assigns (member :: members) named ∧ Sets d named d' ∧ c = override {} d' ∧
          tail = part ++ (text ++ rest) := by
      intro tail h
      obtain ⟨mid, afterMember, hmember, hmembers⟩ := bind_eq_ok.1 h
      obtain ⟨members, text, named, d', htext, hassigns, hsets, rfl, rfl⟩ := ih hmembers
      obtain ⟨member, part, hpart, rfl, hnamed⟩ := member_sound hmember
      rcases hnamed with ⟨a, hlacks, rfl, hkey, hvalue⟩ | ⟨rfl, name, hname, hkey, hvalue⟩
      · exact ⟨member, members, part, text, a :: named, d', hpart, htext,
          .field hkey hvalue hassigns, hsets.cons hlacks, rfl, rfl⟩
      · exact ⟨member, members, part, text, named, d', hpart, htext,
          .unknown hname hkey hvalue hassigns, hsets, rfl, rfl⟩
    split_ifs at h with hclose hstart hquote hcomma
    · cases h
      exact ⟨[], _, [], d, .close hblanks, .nil, .nil, rfl, by simp [hclose]⟩
    · obtain ⟨member, members, part, text, named, d', hpart, htext, hassigns, hsets, rfl, rfl⟩ :=
        hnext h
      subst hstart hquote
      exact ⟨_, _, named, d', .first hblanks ⟨_, rfl, hpart⟩ htext, hassigns, hsets, rfl, by simp⟩
    · cases h
    · split at h
      · cases h
      next ch' tail' hsecond =>
      obtain ⟨blanks', hblanks', rfl⟩ := exists_blanks_of_skipBlanks hsecond
      split_ifs at h with hquote
      · obtain ⟨member, members, part, text, named, d', hpart, htext, hassigns, hsets, rfl, rfl⟩ :=
          hnext h
        obtain rfl := Bool.eq_false_iff.2 hstart
        subst hquote hcomma
        exact ⟨_, _, named, d', .next hblanks hblanks' ⟨_, rfl, hpart⟩ htext, hassigns, hsets, rfl,
          by simp⟩
      all_goals cases h
    · cases h

theorem elements_sound {index : Nat} (hfields : fields ⊆ schema.fields)
    (h : schema.elements index fields d cs = .ok (c, rest)) :
    ∃ values text named, Elements (index == 0) values text ∧
      named.map Assignment.name <+: fields.map (·.name) ∧
      List.Forall₂ Assignment.WrittenAs named values ∧
      c = override {} (named.foldl Assignment.put d) ∧ cs = text ++ rest := by
  induction fields generalizing index d cs with
  | nil =>
    unfold Schema.elements Schema.closeList at h
    split at h
    · cases h
    next ch tail hfirst =>
    obtain ⟨blanks, hblanks, rfl⟩ := exists_blanks_of_skipBlanks hfirst
    split_ifs at h with hclose
    · cases h
      exact ⟨[], _, [], .close hblanks, List.nil_prefix, .nil, rfl, by simp [hclose]⟩
    all_goals cases h
  | cons field fields ih =>
    unfold Schema.elements at h
    split at h
    · cases h
    next ch tail hfirst =>
    obtain ⟨blanks, hblanks, rfl⟩ := exists_blanks_of_skipBlanks hfirst
    -- the value that is read, and the values after it
    have hnext : ∀ {cs}, (field.read d cs >>= fun (d, cs) =>
        schema.elements (index + 1) fields d cs) = .ok (c, rest) →
        ∃ blanks value values text named, AllBlank blanks ∧ Elements false values text ∧
          named.map Assignment.name <+: (field :: fields).map (·.name) ∧
          List.Forall₂ Assignment.WrittenAs named (value :: values) ∧
          c = override {} (named.foldl Assignment.put d) ∧
          cs = blanks ++ (value ++ (text ++ rest)) := by
      intro cs h
      obtain ⟨mid, afterValue, hread, helements⟩ := bind_eq_ok.1 h
      obtain ⟨values, text, named, htext, hnames, hvalues, rfl, rfl⟩ :=
        ih (fun f hf => hfields (List.mem_cons_of_mem _ hf)) helements
      obtain ⟨a, blanks, value, hname, rfl, hblanks, hvalue, rfl⟩ :=
        field_sound (hfields List.mem_cons_self) hread
      exact ⟨blanks, value, values, text, a :: named, hblanks, htext,
        List.cons_prefix_cons.2 ⟨hname, hnames⟩, .cons hvalue hvalues, rfl, rfl⟩
    split_ifs at h with hclose hstart hcomma
    · cases h
      exact ⟨[], _, [], .close hblanks, List.nil_prefix, .nil, rfl, by simp [hclose]⟩
    · obtain ⟨more, value, values, text, named, hmore, htext, hnames, hvalues, rfl, heq⟩ := hnext h
      rw [beq_iff_eq.2 hstart, heq]
      exact ⟨_, _, named, .first (List.forall_mem_append.2 ⟨hblanks, hmore⟩) rfl htext, hnames,
        hvalues, rfl, by simp⟩
    · split at h
      · cases h
      next ch' tail' hsecond =>
      obtain ⟨blanks', hblanks', rfl⟩ := exists_blanks_of_skipBlanks hsecond
      split_ifs at h
      · cases h
      · obtain ⟨more, value, values, text, named, hmore, htext, hnames, hvalues, rfl, heq⟩ :=
          hnext h
        rw [beq_eq_false_iff_ne.2 hstart, heq, hcomma]
        exact ⟨_, _, named, .next hblanks (List.forall_mem_append.2 ⟨hblanks', hmore⟩) rfl htext,
          hnames, hvalues, rfl, by simp⟩
    · cases h

/-- A text that is read is one that names what it is read to. -/
theorem read_sound {blanks : List Char} (h : schema.read cs = .ok (c, blanks))
    (hblanks : AllBlank blanks) :
    ∃ named, Names cs named ∧ c = named.foldl Assignment.apply {} := by
  obtain ⟨ch, tail, hfirst, hread, -⟩ := onFirst_eq_ok h
  obtain ⟨before, hbefore, rfl⟩ := exists_blanks_of_skipBlanks hfirst
  split_ifs at hread with hlist hobject
  · obtain ⟨values, text, named, htext, hnames, hvalues, rfl, rfl⟩ :=
      elements_sound (List.Subset.refl _) hread
    rw [hlist, Assignment.override_foldl_put]
    exact ⟨named, .list hbefore hblanks htext (names_eq ▸ hnames) hvalues, rfl⟩
  · obtain ⟨members, text, named, d', htext, hassigns, hsets, rfl, rfl⟩ := members_sound hread
    rw [hobject, hsets.draft, Assignment.override_foldl_put]
    exact ⟨named, .object hbefore hblanks htext hassigns hsets.names, rfl⟩
  · exact absurd hread mismatch_ne_ok

theorem exists_names {content : Except FileFault ByteArray} (h : load content = .ok c) :
    ∃ text named, content = .ok (String.toUTF8 text) ∧ Names text.toList named ∧
      c = named.foldl Assignment.apply {} := by
  unfold load at h
  split at h
  · cases h
  next bytes =>
  split at h
  · cases h
  next text htext =>
  have hbytes : bytes = text.toUTF8 := by
    unfold String.fromUTF8? at htext
    split_ifs at htext
    rw [← Option.some.inj htext]
    rfl
  unfold ofJson decode at h
  cases hwhole : whole schema.read text.toList with
  | error f =>
    rw [hwhole] at h
    cases h
  | ok found =>
    rw [hwhole] at h
    cases h
    unfold whole at hwhole
    cases hread : schema.read text.toList with
    | error f =>
      rw [hread] at hwhole
      cases hwhole
    | ok result =>
      obtain ⟨found, blanks⟩ := result
      rw [hread] at hwhole
      simp only [bind, Except.bind] at hwhole
      split at hwhole
      · next hskip =>
        cases hwhole
        have hblanks : AllBlank blanks := by
          obtain ⟨all, hall, heq⟩ := exists_blanks_of_skipBlanks hskip
          rwa [heq, List.append_nil]
        obtain ⟨named, hnames, rfl⟩ := read_sound hread hblanks
        exact ⟨text, named, congrArg Except.ok hbytes, hnames, rfl⟩
      · cases hwhole

end Config

end LoadGenerator
