import LoadGenerator.Proofs.CommandLine.Settings

/-!
# The command lines that are taken

Arguments are taken exactly if they write some options of which none is given twice, and what is read
is then what the options say, one after the other (`parse_eq_ok`). An option that has its value is
complete as far as what follows can tell (`Reading.all_eq`), so one induction takes the arguments
option by option, and the converse one finds the options that the arguments write.
-/

namespace LoadGenerator.Invocation

variable {i i' : Invocation} {r r' : Reading} {flag : Flag} {value argument : String}
  {c : Char} {cs : List Char} {arguments rest : List String} {s : Setting}
  {settings others : List Setting}

/-! ### One argument -/

namespace Reading

/-- What has been read, with no option that waits for its value. -/
def done (i : Invocation) : Reading where
  complete := i

theorem valued_eq (h : r.resolve = .ok i) (flag : Flag) (attached : Option String) :
    r.valued flag attached = (done i).valued flag attached := by
  unfold valued
  rw [h]
  rfl

theorem plain_eq (h : r.resolve = .ok i) (flag : Flag) : r.plain flag = (done i).plain flag := by
  unfold plain
  rw [h]
  rfl

theorem value_eq_error (h : ∀ flag, r.pending ≠ some (flag, none)) (argument : String) :
    r.value argument = .error (.unknown argument) := by
  unfold value
  split
  · next hpending => exact absurd hpending (h _)
  · rfl

theorem not_waiting (h : r.resolve = .ok i) (flag : Flag) : r.pending ≠ some (flag, none) := by
  intro hpending
  unfold resolve at h
  rw [hpending] at h
  cases h

/-- It does not matter that an option is not complete yet, once it has its value. -/
theorem next_eq (h : r.resolve = .ok i) (argument : String) :
    r.next argument = (done i).next argument := by
  unfold next
  split
  · unfold long
    simp only [valued_eq h, plain_eq h]
  · simp only [short, valued_eq h, plain_eq h]
  · rw [value_eq_error (not_waiting h), value_eq_error (not_waiting rfl)]

theorem all_eq (h : r.resolve = .ok i) (arguments : List String) :
    r.all arguments = (done i).all arguments := by
  cases arguments with
  | nil => exact h
  | cons argument rest =>
    unfold all
    rw [next_eq h]
    split
    · cases rest with
      | nil => exact h
      | cons => rfl
    · rfl

theorem next_separate (h : IsSeparate argument) : r.next argument = r.value argument := by
  unfold next
  split
  · next heq =>
    rw [h (by rw [heq]; rfl)] at heq
    cases heq
  · next heq =>
    rw [h (by rw [heq]; rfl)] at heq
    cases heq
  · rfl

/-- An option that is not complete takes nothing but a value, if it has none. -/
theorem next_of_resolve_error {stop : Stop} (h : r.resolve = .error stop)
    (hnext : r.next argument = .ok r') : IsSeparate argument ∧ ∃ flag,
      r.pending = some (flag, none) ∧ r' = ⟨r.complete, some (flag, some argument)⟩ := by
  have hvalued : ∀ flag attached, r.valued flag attached = .error stop := by
    intro flag attached
    unfold valued
    rw [h]
    rfl
  have hplain : ∀ flag, r.plain flag = .error stop := by
    intro flag
    unfold plain
    rw [h]
    rfl
  unfold next at hnext
  split at hnext
  · unfold long at hnext
    simp only [hvalued, hplain] at hnext
    split at hnext
    · cases hnext
    · split_ifs at hnext
      split at hnext <;> cases hnext
  · simp only [short, hvalued, hplain] at hnext
    split at hnext
    · cases hnext
    · split_ifs at hnext
  · next hlong hshort =>
    unfold value at hnext
    split at hnext
    · next flag hpending =>
      cases hnext
      refine ⟨fun hhead => ?_, flag, hpending, rfl⟩
      obtain ⟨cs, hcs⟩ := List.head?_eq_some_iff.1 hhead
      cases cs with
      | nil => rw [← String.ofList_toList (s := argument), hcs]
      | cons c cs => exact absurd hcs (hshort c cs)
    · cases hnext

theorem all_cons (h : argument ≠ "--") (rest : List String) :
    r.all (argument :: rest) = r.next argument >>= fun r => r.all rest := by
  conv_lhs => unfold all
  rw [if_neg h]

theorem next_long {name : String} {attached : Option String}
    (h : splitLong cs = (name, attached)) :
    r.next (String.ofList ('-' :: '-' :: cs)) = r.long name attached := by
  unfold next
  rw [String.toList_ofList]
  simp only [h]

theorem all_long {name : String} {attached : Option String} (hne : cs ≠ [])
    (h : splitLong cs = (name, attached)) (rest : List String) :
    r.all (String.ofList ('-' :: '-' :: cs) :: rest) =
      r.long name attached >>= fun r => r.all rest := by
  have harg : String.ofList ('-' :: '-' :: cs) ≠ "--" := by
    intro heq
    have hcs := congrArg String.toList heq
    rw [String.toList_ofList] at hcs
    cases hcs
    exact hne rfl
  rw [all_cons harg, next_long h]

theorem next_short (h : c ≠ '-') (cs : List Char) :
    r.next (String.ofList ('-' :: c :: cs)) = r.short (c :: cs) := by
  unfold next
  rw [String.toList_ofList]
  split
  · next heq =>
    cases heq
    exact absurd rfl h
  · next heq =>
    cases heq
    rfl
  · next hshort => exact absurd rfl (hshort c cs)

theorem splitLong_equals (flag : Flag) (value : List Char) :
    splitLong (flag.long.toList ++ '=' :: value) = (flag.long, some (String.ofList value)) := by
  have hname : ∀ c ∈ flag.long.toList, decide (c ≠ '=') = true := by
    intro c hc
    exact decide_eq_true fun heq => flag.not_mem_long (heq ▸ hc)
  unfold splitLong
  rw [List.takeWhile_append_of_pos hname, List.dropWhile_append_of_pos hname]
  simp

/-! ### Options that are written -/

theorem done_plain (hs : i.has s.flag = false) (hplain : s.flag.value? = none) :
    (done i).plain s.flag = .ok (done (s.put i)) := by
  have hraise := raise_eq_ok.2 ⟨hs, s, rfl, hplain, rfl⟩
  show (i.raise s.flag >>= fun i => Except.ok (done i)) = _
  rw [hraise]
  rfl

theorem done_valued (hs : i.has s.flag = false) (hvalue : s.WrittenAs value) :
    (done i).valued s.flag (some value) = .ok (done (s.put i)) := by
  have hassign := assign_eq_ok.2 ⟨hs, s, rfl, hvalue, rfl⟩
  show (i.assign s.flag value >>= fun i => Except.ok (done i)) = _
  rw [hassign]
  rfl

/-- An option that waits for its value gets it. -/
theorem all_waiting (hs : i.has s.flag = false) (hvalue : s.WrittenAs value)
    (hseparate : IsSeparate value) (rest : List String) :
    Reading.all ⟨i, some (s.flag, none)⟩ (value :: rest) = (done (s.put i)).all rest := by
  have hassign := assign_eq_ok.2 ⟨hs, s, rfl, hvalue, rfl⟩
  rw [all_cons hseparate.ne_terminator, next_separate hseparate]
  exact all_eq (r := ⟨i, some (s.flag, some value)⟩) hassign rest

theorem short_append (h : Cluster cs arguments settings) (hfresh : Fresh i settings)
    (rest : List String) : ((done i).short cs >>= fun r => r.all (arguments ++ rest)) =
      (done (settings.foldl Setting.put i)).all rest := by
  induction h generalizing i with
  | nil => rfl
  | plain hname hplain _ ih =>
    simp only [short, Flag.ofShort?_eq_some.2 hname, hplain, done_plain hfresh.1 hplain]
    exact ih hfresh.2
  | @attached c value s hname hvalue hne hhead =>
    have hattached : attachment value.toList = some value := by
      unfold attachment
      split
      · next heq => exact absurd (String.toList_eq_nil_iff.1 heq) hne
      · next heq => exact absurd (by rw [heq]; rfl) hhead
      · rw [String.ofList_toList]
    simp only [short, Flag.ofShort?_eq_some.2 hname, hvalue.isSome, hattached,
      done_valued hfresh.1 hvalue]
    rfl
  | equals hname hvalue =>
    simp only [short, Flag.ofShort?_eq_some.2 hname, hvalue.isSome, attachment,
      String.ofList_toList, done_valued hfresh.1 hvalue]
    rfl
  | separate hname hvalue hseparate =>
    simp only [short, Flag.ofShort?_eq_some.2 hname, hvalue.isSome, attachment]
    exact all_waiting hfresh.1 hvalue hseparate rest

theorem dashes_append (name : String) :
    "--" ++ name = String.ofList ('-' :: '-' :: name.toList) := by
  rw [← String.toList_inj]
  simp

theorem dashes_append_equals (name value : String) : "--" ++ name ++ "=" ++ value =
    String.ofList ('-' :: '-' :: (name.toList ++ '=' :: value.toList)) := by
  rw [← String.toList_inj]
  simp

theorem spelling_append (h : Spelling arguments settings) (hfresh : Fresh i settings)
    (rest : List String) :
    (done i).all (arguments ++ rest) = (done (settings.foldl Setting.put i)).all rest := by
  have hname : ∀ flag : Flag, flag.long.toList ≠ [] := by
    intro flag h
    exact flag.long_ne_empty (String.toList_eq_nil_iff.1 h)
  cases h with
  | @plain s hplain =>
    rw [List.singleton_append, dashes_append, all_long (hname _) s.flag.splitLong_long]
    simp only [long, Flag.ofLong?_long, hplain, done_plain hfresh.1 hplain]
    rfl
  | @equals value s hvalue =>
    rw [List.singleton_append, dashes_append_equals,
      all_long (by simp) (splitLong_equals s.flag value.toList)]
    simp only [long, Flag.ofLong?_long, hvalue.isSome, String.ofList_toList,
      done_valued hfresh.1 hvalue]
    rfl
  | @separate value s hvalue hseparate =>
    rw [List.cons_append, dashes_append, all_long (hname _) s.flag.splitLong_long]
    simp only [long, Flag.ofLong?_long, hvalue.isSome]
    exact all_waiting hfresh.1 hvalue hseparate rest
  | @short cs arguments _ hne h =>
    obtain ⟨c, cs, rfl⟩ := List.exists_cons_of_ne_nil hne
    have hc : c ≠ '-' := by
      rintro rfl
      cases h with
      | plain hname | attached hname | equals hname | separate hname =>
        exact Flag.short?_ne_dash _ hname
    have harg : String.ofList ('-' :: c :: cs) ≠ "--" := by
      intro heq
      have hcs := congrArg String.toList heq
      rw [String.toList_ofList] at hcs
      cases hcs
      exact hc rfl
    rw [List.cons_append, all_cons harg, next_short hc]
    exact short_append h hfresh rest

theorem all_of_writes (h : Writes arguments settings) (hfresh : Fresh i settings) :
    (done i).all arguments = .ok (settings.foldl Setting.put i) := by
  induction h generalizing i with
  | nil => rfl
  | terminator => rfl
  | cons h _ ih =>
    obtain ⟨hfirst, hrest⟩ := fresh_append.1 hfresh
    rw [spelling_append h hfirst, ih hrest, List.foldl_append]

/-! ### Options that are read -/

/-- What has been read are options that the arguments write, or that they do write with a value for
the last one behind them. -/
def Follows (Written : List String → List Setting → Prop) (i : Invocation) (r : Reading) : Prop :=
  ∃ settings, Fresh i settings ∧
    (Written [] settings ∧ r = done (settings.foldl Setting.put i) ∨
      ∃ flag, r = ⟨settings.foldl Setting.put i, some (flag, none)⟩ ∧
        ∀ s : Setting, ∀ value, s.flag = flag → s.WrittenAs value → IsSeparate value →
          Written [value] (settings ++ [s]))

theorem plain_sound (h : (done i).plain flag = .ok r) : ∃ s : Setting, s.flag = flag ∧
    flag.value? = none ∧ i.has flag = false ∧ r = done (s.put i) := by
  cases hraise : i.raise flag with
  | error stop =>
    simp only [plain, resolve, done, hraise, bind, Except.bind] at h
    cases h
  | ok i' =>
    simp only [plain, resolve, done, hraise, bind, Except.bind] at h
    cases h
    obtain ⟨hlacks, s, rfl, hplain, rfl⟩ := raise_eq_ok.1 hraise
    exact ⟨s, rfl, hplain, hlacks, rfl⟩

theorem valued_sound (h : (done i).valued flag (some value) = .ok r) : ∃ s : Setting,
    s.flag = flag ∧ s.WrittenAs value ∧ i.has flag = false ∧ r = done (s.put i) := by
  cases hassign : i.assign flag value with
  | error stop =>
    simp only [valued, resolve, done, hassign, bind, Except.bind] at h
    cases h
  | ok i' =>
    simp only [valued, resolve, done, hassign, bind, Except.bind] at h
    cases h
    obtain ⟨hlacks, s, rfl, hvalue, rfl⟩ := assign_eq_ok.1 hassign
    exact ⟨s, rfl, hvalue, hlacks, rfl⟩

/-- A value that is attached is found after an equals sign or without one. -/
theorem cluster_of_attachment (hname : s.flag.short? = some c) (hvalue : s.WrittenAs value)
    (h : attachment cs = some value) : Cluster (c :: cs) [] [s] := by
  unfold attachment at h
  split at h
  · cases h
  · next cs =>
    cases h
    have hcluster := Cluster.equals hname hvalue
    rwa [String.toList_ofList] at hcluster
  · next hne hhead =>
    cases h
    have hcluster := Cluster.attached hname hvalue
    rw [String.toList_ofList] at hcluster
    refine hcluster (fun hempty => ?_) fun hequals => ?_
    · rw [← String.toList_eq_nil_iff, String.toList_ofList] at hempty
      exact hne hempty
    · obtain ⟨tail, htail⟩ := List.head?_eq_some_iff.1 hequals
      exact hhead tail htail

theorem short_sound (h : (done i).short cs = .ok r) : Follows (Cluster cs) i r := by
  induction cs generalizing i with
  | nil =>
    cases h
    exact ⟨[], trivial, .inl ⟨.nil, rfl⟩⟩
  | cons c cs ih =>
    unfold short at h
    split at h
    · cases h
    next flag hflag =>
    have hname := Flag.ofShort?_eq_some.1 hflag
    split_ifs at h with hvalued
    · cases hattached : attachment cs with
      | none =>
        rw [hattached] at h
        cases h
        have hnil : cs = [] := by
          unfold attachment at hattached
          split at hattached
          · rfl
          all_goals cases hattached
        subst hnil
        refine ⟨[], trivial, .inr ⟨flag, rfl, fun s value hs hvalue hseparate => ?_⟩⟩
        exact .separate (by rw [hs, hname]) hvalue hseparate
      | some value =>
        rw [hattached] at h
        obtain ⟨s, rfl, hvalue, hlacks, rfl⟩ := valued_sound h
        exact ⟨[s], ⟨hlacks, trivial⟩, .inl ⟨cluster_of_attachment hname hvalue hattached, rfl⟩⟩
    · split at h
      · next r' hplain =>
        obtain ⟨s, rfl, hnone, hlacks, rfl⟩ := plain_sound hplain
        obtain ⟨settings, hfresh, ⟨hcluster, rfl⟩ | ⟨flag, rfl, hcluster⟩⟩ := ih h
        · exact ⟨s :: settings, ⟨hlacks, hfresh⟩, .inl ⟨.plain hname hnone hcluster, rfl⟩⟩
        · exact ⟨s :: settings, ⟨hlacks, hfresh⟩, .inr ⟨flag, rfl, fun t value ht hvalue hsep =>
            .plain hname hnone (hcluster t value ht hvalue hsep)⟩⟩
      · cases h

theorem splitLong_sound {name : String} {attached : Option String}
    (h : splitLong cs = (name, attached)) : attached = none ∧ cs = name.toList ∨
      ∃ value, attached = some value ∧ cs = name.toList ++ '=' :: value.toList := by
  have hparts := List.takeWhile_append_dropWhile (p := fun c : Char => decide (c ≠ '=')) (l := cs)
  obtain ⟨rfl, hattached⟩ := Prod.mk.inj h
  rw [String.toList_ofList]
  split at hattached
  · next hnil =>
    rw [hnil, List.append_nil] at hparts
    exact .inl ⟨hattached.symm, hparts.symm⟩
  · next c value hcons =>
    have hc : c = '=' := by
      have hhead := List.head?_dropWhile_not (fun c : Char => decide (c ≠ '=')) cs
      rw [hcons] at hhead
      simpa using hhead
    refine .inr ⟨_, hattached.symm, ?_⟩
    rw [hcons, hc] at hparts
    rw [String.toList_ofList]
    exact hparts.symm

theorem next_sound (h : (done i).next argument = .ok r) :
    Follows (fun arguments => Spelling (argument :: arguments)) i r := by
  unfold next at h
  split at h
  · next cs heq =>
    have harg : argument = String.ofList ('-' :: '-' :: cs) := by
      rw [← heq, String.ofList_toList]
    cases hsplit : splitLong cs with
    | mk name attached =>
    simp only [hsplit, long] at h
    split at h
    · cases h
    next flag hflag =>
    obtain rfl := Flag.long_of_ofLong? hflag
    rcases splitLong_sound hsplit with ⟨rfl, rfl⟩ | ⟨value, rfl, rfl⟩
    · rw [← dashes_append] at harg
      split_ifs at h with hvalued
      · cases h
        refine ⟨[], trivial, .inr ⟨flag, rfl, fun s value hs hvalue hseparate => ?_⟩⟩
        rw [harg, ← hs]
        exact .separate hvalue hseparate
      · obtain ⟨s, rfl, hplain, hlacks, rfl⟩ := plain_sound h
        exact ⟨[s], ⟨hlacks, trivial⟩, .inl ⟨harg ▸ .plain hplain, rfl⟩⟩
    · rw [← dashes_append_equals] at harg
      split_ifs at h with hvalued
      obtain ⟨s, rfl, hvalue, hlacks, rfl⟩ := valued_sound h
      exact ⟨[s], ⟨hlacks, trivial⟩, .inl ⟨harg ▸ .equals hvalue, rfl⟩⟩
  · next c cs hdash heq =>
    have harg : argument = String.ofList ('-' :: c :: cs) := by
      rw [← heq, String.ofList_toList]
    obtain ⟨settings, hfresh, ⟨hcluster, rfl⟩ | ⟨flag, rfl, hcluster⟩⟩ := short_sound h
    · exact ⟨settings, hfresh, .inl ⟨harg ▸ .short (List.cons_ne_nil _ _) hcluster, rfl⟩⟩
    · exact ⟨settings, hfresh, .inr ⟨flag, rfl, fun s value hs hvalue hseparate =>
        harg ▸ .short (List.cons_ne_nil _ _) (hcluster s value hs hvalue hseparate)⟩⟩
  · cases h

/-- What is taken has no option that is not complete. -/
theorem resolve_of_all (h : r.all arguments = .ok i')
    (hpending : ∀ flag, r.pending ≠ some (flag, none)) : ∃ i, r.resolve = .ok i := by
  cases hresolve : r.resolve with
  | ok i => exact ⟨i, rfl⟩
  | error stop =>
    exfalso
    unfold all at h
    split at h
    · rw [hresolve] at h
      cases h
    · split_ifs at h
      · split at h
        · rw [hresolve] at h
          cases h
        · cases h
      · next argument rest _ =>
        cases hnext : r.next argument with
        | error stop =>
          rw [hnext] at h
          cases h
        | ok r' =>
          obtain ⟨-, flag, hwaits, -⟩ := next_of_resolve_error hresolve hnext
          exact hpending flag hwaits

/-- An option that waits for its value is followed by it. -/
theorem all_waiting_sound (h : Reading.all ⟨i, some (flag, none)⟩ arguments = .ok i') :
    ∃ (s : Setting) (value : String) (rest : List String), arguments = value :: rest ∧
      s.flag = flag ∧ s.WrittenAs value ∧ IsSeparate value ∧ i.has flag = false ∧
      (done (s.put i)).all rest = .ok i' := by
  cases arguments with
  | nil => cases h
  | cons value rest =>
    by_cases hterminator : value = "--"
    · unfold all at h
      rw [if_pos hterminator] at h
      cases rest <;> cases h
    rw [all_cons hterminator] at h
    cases hnext : Reading.next ⟨i, some (flag, none)⟩ value with
    | error stop =>
      rw [hnext] at h
      cases h
    | ok r =>
      rw [hnext] at h
      obtain ⟨hseparate, _, hflag, rfl⟩ := next_of_resolve_error rfl hnext
      cases hflag
      obtain ⟨i'', hassign⟩ := resolve_of_all h fun _ => nofun
      obtain ⟨hlacks, s, rfl, hvalue, rfl⟩ := assign_eq_ok.1 hassign
      exact ⟨s, value, rest, rfl, rfl, hvalue, hseparate, hlacks, (all_eq hassign rest).symm.trans h⟩

theorem writes_of_all (h : (done i).all arguments = .ok i') :
    ∃ settings, Writes arguments settings ∧ Fresh i settings ∧
      i' = settings.foldl Setting.put i := by
  -- an argument or two are taken at a time
  induction hlength : arguments.length using Nat.strongRecOn generalizing arguments i with
  | ind length ih =>
    subst hlength
    cases arguments with
    | nil =>
      cases h
      exact ⟨[], .nil, trivial, rfl⟩
    | cons argument rest =>
      by_cases hterminator : argument = "--"
      · subst hterminator
        cases rest with
        | nil =>
          cases h
          exact ⟨[], .terminator, trivial, rfl⟩
        | cons => cases h
      rw [all_cons hterminator] at h
      cases hnext : (done i).next argument with
      | error stop =>
        rw [hnext] at h
        cases h
      | ok r =>
        rw [hnext] at h
        obtain ⟨settings, hfresh, ⟨hspelling, rfl⟩ | ⟨flag, rfl, hspelling⟩⟩ := next_sound hnext
        · obtain ⟨others, hwrites, hothers, rfl⟩ := ih _ (by simp) h rfl
          exact ⟨settings ++ others, .cons hspelling hwrites, fresh_append.2 ⟨hfresh, hothers⟩,
            (List.foldl_append ..).symm⟩
        · obtain ⟨s, value, rest, rfl, rfl, hvalue, hseparate, hlacks, h⟩ := all_waiting_sound h
          obtain ⟨others, hwrites, hothers, rfl⟩ :=
            ih _ (by simp only [List.length_cons]; omega) h rfl
          refine ⟨settings ++ [s] ++ others, .cons (hspelling s value rfl hvalue hseparate) hwrites,
            fresh_append.2 ⟨fresh_append.2 ⟨hfresh, hlacks, trivial⟩, ?_⟩, ?_⟩
          · rwa [List.foldl_append]
          · rw [List.foldl_append, List.foldl_append]
            rfl

end Reading

theorem parse_eq_ok : parse arguments = .ok i ↔ ∃ settings, Writes arguments settings ∧
    (settings.map Setting.flag).Nodup ∧ i = settings.foldl Setting.put {} := by
  have hnone : ∀ flag, has {} flag = false := by
    intro flag
    cases flag <;> rfl
  constructor
  · intro h
    obtain ⟨settings, hwrites, hfresh, rfl⟩ := Reading.writes_of_all h
    exact ⟨settings, hwrites, (fresh_iff.1 hfresh).1, rfl⟩
  · rintro ⟨settings, hwrites, hflags, rfl⟩
    exact Reading.all_of_writes hwrites (fresh_iff.2 ⟨hflags, fun s _ => hnone s.flag⟩)

end LoadGenerator.Invocation
