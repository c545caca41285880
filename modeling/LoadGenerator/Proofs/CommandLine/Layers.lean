import LoadGenerator.Proofs.CommandLine.Arguments
import LoadGenerator.Proofs.Config.Loading

/-!
# The command line over the file over the defaults

`Config.Layers` says where the fields of a configuration come from: from the options, else from the
file, else from the defaults. `flags_over_file_over_defaults` says that the configuration of every
command line that is taken has its fields from there, in whatever order and spelling the options are
given, and that of a file that loads no more counts than the fields that no option gives.
-/

namespace LoadGenerator

/-- The field that the option gives, if it gives one. -/
def Setting.assignment? : Setting → Option Assignment
  | .config _ => none
  | .target s => some (.target s)
  | .requests n => some (.totalRequests n)
  | .concurrency n => some (.concurrency n)
  | .queueMultiplier n => some (.queueCapacityMultiplier n)
  | .failFast => some (.failurePolicy .abort)
  | .json => none
  | .verbose => none

/-- The fields that the options give. -/
def given (settings : List Setting) : List Assignment :=
  settings.filterMap Setting.assignment?

/-- The names of the fields that are assigned. -/
def assigned (assignments : List Assignment) : List String :=
  assignments.map Assignment.name

/-- The field has its value from the list if that names it, and from what lies below if not. -/
def Over (top : List Assignment) (below : Assignment → Prop) (a : Assignment) : Prop :=
  a ∈ top ∨ a.name ∉ assigned top ∧ below a

/-- Each field is as the flags give it, or else as the file names it, or else the default. -/
def Config.Layers (flags file : List Assignment) (c : Config) : Prop :=
  ∀ a ∈ c.assignments, Over flags (Over file (· ∈ ({} : Config).assignments)) a

instance (top : List Assignment) (below : Assignment → Prop) [DecidablePred below] :
    DecidablePred (Over top below) :=
  fun _ => inferInstanceAs (Decidable (_ ∨ _))

instance (flags file : List Assignment) (c : Config) : Decidable (Config.Layers flags file c) :=
  inferInstanceAs (Decidable (∀ a ∈ c.assignments, _))

variable {a b : Assignment} {assignments flags file : List Assignment} {c c' : Config}
  {settings : List Setting} {s : Setting} {i : Invocation}

/-! ### Fields that are replaced -/

namespace Config

theorem eq_of_assignments_subset (h : c.assignments ⊆ c'.assignments) : c = c' := by
  simp only [assignments, List.cons_subset, List.mem_cons, List.not_mem_nil, or_false,
    Assignment.target.injEq, Assignment.totalRequests.injEq, Assignment.concurrency.injEq,
    Assignment.queueCapacityMultiplier.injEq, Assignment.failurePolicy.injEq, reduceCtorEq,
    false_or, List.nil_subset, and_true] at h
  obtain ⟨htarget, hrequests, hconcurrency, hmultiplier, hpolicy⟩ := h
  cases c
  cases c'
  simp_all

theorem eq_of_name_eq (ha : a ∈ c.assignments) (hb : b ∈ c.assignments) (h : a.name = b.name) :
    a = b := by
  have hnames : (c.assignments.map Assignment.name).Nodup := by
    show fieldNames.Nodup
    decide
  exact List.inj_on_of_nodup_map hnames ha hb h

theorem mem_assignments_apply :
    a ∈ (b.apply c).assignments ↔ a = b ∨ a.name ≠ b.name ∧ a ∈ c.assignments := by
  cases b <;> cases a <;> simp [assignments, Assignment.apply, Assignment.name]

/-- A field is one that has been assigned, or what it was. -/
theorem over_of_foldl (h : a ∈ (assignments.foldl Assignment.apply c).assignments) :
    Over assignments (· ∈ c.assignments) a := by
  induction assignments generalizing c with
  | nil => exact .inr ⟨List.not_mem_nil, h⟩
  | cons b assignments ih =>
    rcases ih h with hmem | ⟨hnot, hmem⟩
    · exact .inl (List.mem_cons_of_mem _ hmem)
    · rcases mem_assignments_apply.1 hmem with rfl | ⟨hne, hmem⟩
      · exact .inl List.mem_cons_self
      · exact .inr ⟨List.not_mem_cons_of_ne_of_not_mem hne hnot, hmem⟩

theorem layers_foldl (flags file : List Assignment) :
    Layers flags file (flags.foldl Assignment.apply (file.foldl Assignment.apply {})) :=
  fun _ ha => (over_of_foldl ha).imp_right (And.imp_right over_of_foldl)

/-- Where fields are replaced it does not matter what they were. -/
theorem foldl_apply_eq
    (h : ∀ a ∈ c.assignments, a.name ∉ assigned assignments → a ∈ c'.assignments) :
    assignments.foldl Assignment.apply c = assignments.foldl Assignment.apply c' := by
  induction assignments generalizing c c' with
  | nil => exact eq_of_assignments_subset fun a ha => h a ha List.not_mem_nil
  | cons b assignments ih =>
    refine ih fun a ha hnot => mem_assignments_apply.2 ?_
    rcases mem_assignments_apply.1 ha with rfl | ⟨hne, ha⟩
    · exact .inl rfl
    · exact .inr ⟨hne, h a ha (List.not_mem_cons_of_ne_of_not_mem hne hnot)⟩

end Config

theorem Over.eq {top : List Assignment} {below : Assignment → Prop} (htop : (assigned top).Nodup)
    (hbelow : below a → below b → a = b) (ha : Over top below a) (hb : Over top below b)
    (hname : a.name = b.name) : a = b := by
  rcases ha with ha | ⟨hnot, ha⟩ <;> rcases hb with hb | ⟨hnot', hb⟩
  · exact List.inj_on_of_nodup_map htop ha hb hname
  · exact absurd (hname ▸ List.mem_map_of_mem ha) hnot'
  · exact absurd (hname ▸ List.mem_map_of_mem hb) hnot
  · exact hbelow ha hb

/-- There is no other configuration with these fields. -/
theorem Config.Layers.eq (hflags : (assigned flags).Nodup) (hfile : (assigned file).Nodup)
    (h : Layers flags file c) (h' : Layers flags file c') : c = c' := by
  refine eq_of_assignments_subset fun a ha => ?_
  have hmem : a.name ∈ c'.assignments.map Assignment.name :=
    show a.name ∈ c.assignments.map Assignment.name from List.mem_map_of_mem ha
  obtain ⟨b, hb, hname⟩ := List.mem_map.1 hmem
  have hsame : a = b := by
    refine Over.eq hflags (fun hover hover' => ?_) (h a ha) (h' b hb) hname.symm
    refine Over.eq hfile (fun hdefault hdefault' => ?_) hover hover' hname.symm
    exact eq_of_name_eq hdefault hdefault' hname.symm
  exact hsame ▸ hb

theorem Config.layers_iff (hflags : (assigned flags).Nodup) (hfile : (assigned file).Nodup) :
    Layers flags file c ↔ c = flags.foldl Assignment.apply (file.foldl Assignment.apply {}) := by
  constructor
  · intro h
    exact h.eq hflags hfile (layers_foldl flags file)
  · rintro rfl
    exact layers_foldl flags file

/-! ### The command line -/

theorem draft_put (i : Invocation) (s : Setting) :
    (s.put i).draft = s.assignment?.elim i.draft (Assignment.put i.draft) := by
  cases s <;> rfl

theorem draft_foldl (settings : List Setting) (i : Invocation) :
    (settings.foldl Setting.put i).draft = (given settings).foldl Assignment.put i.draft := by
  induction settings generalizing i with
  | nil => rfl
  | cons s settings ih =>
    rw [List.foldl_cons, ih, draft_put, given, given, List.filterMap_cons]
    cases s.assignment? <;> rfl

theorem config_of_not_mem (h : ∀ path, .config path ∉ settings) (i : Invocation) :
    (settings.foldl Setting.put i).config = i.config := by
  induction settings generalizing i with
  | nil => rfl
  | cons s settings ih =>
    rw [List.foldl_cons, ih fun path hmem => h path (List.mem_cons_of_mem _ hmem)]
    cases s with
    | config path => exact absurd List.mem_cons_self (h path)
    | target | requests | concurrency | queueMultiplier | failFast | json | verbose => rfl

theorem config_of_mem {path : String} (hflags : (settings.map Setting.flag).Nodup)
    (h : .config path ∈ settings) (i : Invocation) :
    (settings.foldl Setting.put i).config = some path := by
  induction settings generalizing i with
  | nil => cases h
  | cons s settings ih =>
    obtain ⟨hnot, hrest⟩ := List.nodup_cons.1 hflags
    rcases List.mem_cons.1 h with rfl | h
    · rw [List.foldl_cons, config_of_not_mem fun other hother => hnot (List.mem_map.2 ⟨_, hother, rfl⟩)]
      rfl
    · exact ih hrest h _

theorem flag_eq_of_name_eq {s t : Setting} (hs : s.assignment? = some a)
    (ht : t.assignment? = some b) (h : a.name = b.name) : s.flag = t.flag := by
  cases s <;> cases hs <;> cases t <;> cases ht <;> simp [Assignment.name, Setting.flag] at h ⊢

theorem nodup_given (hflags : (settings.map Setting.flag).Nodup) :
    (assigned (given settings)).Nodup := by
  unfold assigned given List.Nodup
  rw [List.pairwise_map, List.pairwise_filterMap]
  refine (List.pairwise_map.1 hflags).imp fun hne a hs b ht hname => ?_
  exact hne (flag_eq_of_name_eq hs ht hname)

namespace Invocation

open Json

variable {files : Files} {path : String}

theorem configure_of_load {loaded : Config} (hpath : i.config = some path)
    (h : Config.load (files path) = .ok loaded) :
    i.configure files = .ok (loaded.override i.draft) := by
  unfold configure
  rw [hpath]
  simp only [h]
  rfl

theorem override_draft (settings : List Setting) (c : Config) :
    c.override (settings.foldl Setting.put {}).draft =
      (given settings).foldl Assignment.apply c := by
  rw [draft_foldl, Assignment.override_foldl_put]
  rfl

/-- Whatever is taken writes options of which none is given twice. However these are written and in
whatever order, it is read to the same invocation, and each field of the configuration is the flag's,
else the file's, else the default: there is exactly one such configuration. A file that does not load
is an error, whatever flags are given, and of a file that does, nothing counts but the fields that no
flag gives: with another that has the same of these the configuration is the same. -/
theorem flags_over_file_over_defaults :
    (∀ arguments i, parse arguments = .ok i →
      ∃ settings, Writes arguments settings ∧ (settings.map Setting.flag).Nodup) ∧
    ∀ settings : List Setting, (settings.map Setting.flag).Nodup → ∃ i : Invocation,
      (∀ arguments others, Writes arguments others → others.Perm settings →
        parse arguments = .ok i) ∧
      ∀ files : Files,
        ((∀ path, .config path ∉ settings) → ∃ c, i.configure files = .ok c ∧
          ∀ c', Config.Layers (given settings) [] c' ↔ c' = c) ∧
        ∀ path, .config path ∈ settings →
          (∀ error, Config.load (files path) = .error error →
            i.configure files = .error error) ∧
          ∀ loaded, Config.load (files path) = .ok loaded →
            (∃ text named, files path = .ok (String.toUTF8 text) ∧
              Config.Names text.toList named) ∧
            (∀ text named, files path = .ok (String.toUTF8 text) →
              Config.Names text.toList named → ∃ c, i.configure files = .ok c ∧
                ∀ c', Config.Layers (given settings) named c' ↔ c' = c) ∧
            ∀ files' : Files, ∀ loaded', Config.load (files' path) = .ok loaded' →
              (∀ a ∈ loaded.assignments, a.name ∉ assigned (given settings) →
                a ∈ loaded'.assignments) →
              i.configure files' = i.configure files := by
  refine ⟨fun arguments i h => ?_, fun settings hflags =>
    ⟨settings.foldl Setting.put {}, fun arguments others hwrites hperm => ?_, fun files =>
      ⟨fun hnone => ?_, fun path hpath => ?_⟩⟩⟩
  · obtain ⟨settings, hwrites, hflags, -⟩ := parse_eq_ok.1 h
    exact ⟨settings, hwrites, hflags⟩
  · refine parse_eq_ok.2 ⟨others, hwrites, ?_, (Setting.foldl_put_perm hperm hflags {}).symm⟩
    exact ((hperm.map Setting.flag).nodup_iff).2 hflags
  · have hconfig := config_of_not_mem hnone {}
    refine ⟨(given settings).foldl Assignment.apply {}, ?_, fun c' => ?_⟩
    · unfold configure
      rw [hconfig, ← override_draft]
    · exact Config.layers_iff (nodup_given hflags) List.nodup_nil
  · have hconfig := config_of_mem hflags hpath {}
    refine ⟨fun error herror => ?_, fun loaded hloaded =>
      ⟨?_, fun text named htext hnames => ?_, fun files' loaded' hloaded' hsame => ?_⟩⟩
    · unfold configure
      rw [hconfig]
      simp only [herror]
      rfl
    · obtain ⟨text, named, htext, hnames, -⟩ := Config.exists_names hloaded
      exact ⟨text, named, htext, hnames⟩
    · have hnamed : Config.load (files path) = .ok (named.foldl Assignment.apply {}) := by
        rw [htext, ← String.ofList_toList (s := text)]
        exact hnames.load
      refine ⟨_, configure_of_load hconfig hnamed, fun c' => ?_⟩
      rw [override_draft]
      exact Config.layers_iff (nodup_given hflags) hnames.nodup
    · rw [configure_of_load hconfig hloaded, configure_of_load hconfig hloaded', override_draft,
        override_draft, Config.foldl_apply_eq hsame]

/-- A file whose number of workers would be refused, with another number among the flags, which are
written together and one by one. -/
theorem flags_over_file_over_defaults_fail_fast :
    ∃ i : Invocation, parse ["-vc3", "--config=run.json", "--fail-fast"] = .ok i ∧
      parse ["--fail-fast", "--concurrency", "+03", "--config", "run.json", "--verbose", "--"] =
        .ok i ∧
      i.configure (fun _ => .ok "\x7b\"target\":\"a\",\"concurrency\":0\x7d".toUTF8) =
        .ok { target := "a", concurrency := 3, failurePolicy := .abort } ∧
      ∃ settings, Writes ["-vc3", "--config=run.json", "--fail-fast"] settings ∧
        (settings.map Setting.flag).Nodup := by
  have hthree : Numeral.Denotes "3".toList (3 : UInt64).toNat :=
    ⟨['3'], .inl rfl, by decide, by simp [Numeral.AllDigits], by decide⟩
  have hsigned : Numeral.Denotes "+03".toList (3 : UInt64).toNat :=
    ⟨['0', '3'], .inr rfl, by decide, by simp [Numeral.AllDigits], by decide⟩
  have hpath : (Setting.config "run.json").WrittenAs "run.json" := ⟨rfl, by decide⟩
  have htogether : Writes ["-vc3", "--config=run.json", "--fail-fast"]
      [.verbose, .concurrency 3, .config "run.json", .failFast] := by
    have hattached : Cluster ('c' :: "3".toList) [] [.concurrency 3] :=
      .attached rfl hthree (by decide) (by decide)
    have hcluster : Cluster "vc3".toList [] [.verbose, .concurrency 3] :=
      .plain rfl rfl hattached
    exact .cons (.short (by decide) hcluster)
      (.cons (.equals hpath) (.cons (.plain (s := .failFast) rfl) .nil))
  have hsingle : Writes
      ["--fail-fast", "--concurrency", "+03", "--config", "run.json", "--verbose", "--"]
      [.failFast, .concurrency 3, .config "run.json", .verbose] :=
    .cons (.plain (s := .failFast) rfl)
      (.cons (.separate (s := .concurrency 3) hsigned (by simp [IsSeparate]))
        (.cons (.separate hpath (by simp [IsSeparate]))
          (.cons (.plain (s := .verbose) rfl) .terminator)))
  obtain ⟨hwritten, hconfigured⟩ := flags_over_file_over_defaults
  obtain ⟨i, hparse, hfiles⟩ :=
    hconfigured [.verbose, .concurrency 3, .config "run.json", .failFast] (by decide)
  have htaken := hparse _ _ htogether (List.Perm.refl _)
  refine ⟨i, htaken, hparse _ _ hsingle (by decide), ?_, hwritten _ _ htaken⟩
  have hnone : AllBlank [] := by decide
  have hobject : Members true
      [("target".toList, quoted "a".toList), ("concurrency".toList, "0".toList)] _ :=
    .first hnone ⟨_, rfl, [], [], hnone, hnone, rfl⟩
      (.next hnone hnone ⟨_, rfl, [], [], hnone, hnone, rfl⟩ (.close hnone))
  have hassigns : Config.Assigns
      [("target".toList, quoted "a".toList), ("concurrency".toList, "0".toList)]
      [.target "a", .concurrency 0] :=
    .field (.of_plain (by decide)) ⟨_, .of_plain (by decide), rfl⟩
      (.field (.of_plain (by decide)) ⟨Numeral.isPlain_write (n := 0), by decide⟩ .nil)
  have hnames : Config.Names "\x7b\"target\":\"a\",\"concurrency\":0\x7d".toList
      [.target "a", .concurrency 0] := by
    refine (congrArg (fun cs => Config.Names cs _) ?_).mp
      (.object hnone hnone hobject hassigns (by decide))
    decide
  have hloads : Config.load (.ok "\x7b\"target\":\"a\",\"concurrency\":0\x7d".toUTF8) =
      .ok { target := "a", concurrency := 0 } := by
    have hload := hnames.load
    rwa [String.ofList_toList] at hload
  obtain ⟨-, hfile⟩ := (hfiles fun _ => _).2 "run.json" (by decide)
  obtain ⟨c, hc, honly⟩ := (hfile _ hloads).2.1 _ _ rfl hnames
  rw [hc, ← (honly { target := "a", concurrency := 3, failurePolicy := .abort }).1 (by decide)]

end Invocation

end LoadGenerator
