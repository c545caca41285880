import LoadGenerator.CommandLine
import LoadGenerator.Proofs.Text.Numerals
import Mathlib.Data.List.Nodup

/-!
# Options and how they are written

`Writes` says in which ways options may be written: in any order, each by its long or its short name,
short ones together, a value after an equals sign, attached or on its own. A value is taken for an
option exactly if it is written for it and the option has not been given before (`assign_eq_ok`), and
options that differ may change places (`Setting.foldl_put_perm`).
-/

namespace LoadGenerator

/-- An option that is given, with its value. -/
inductive Setting where
  | config (path : String)
  | target (s : String)
  | requests (n : UInt64)
  | concurrency (n : UInt64)
  | queueMultiplier (n : UInt64)
  | failFast
  | json
  | verbose
  deriving DecidableEq, Repr

namespace Setting

def flag : Setting → Flag
  | .config _ => .config
  | .target _ => .target
  | .requests _ => .requests
  | .concurrency _ => .concurrency
  | .queueMultiplier _ => .queueMultiplier
  | .failFast => .failFast
  | .json => .json
  | .verbose => .verbose

/-- The invocation with the option given. -/
def put (i : Invocation) : Setting → Invocation
  | .config path => { i with config := some path }
  | .target s => { i with target := some s }
  | .requests n => { i with requests := some n }
  | .concurrency n => { i with concurrency := some n }
  | .queueMultiplier n => { i with queueMultiplier := some n }
  | .failFast => { i with failFast := true }
  | .json => { i with json := true }
  | .verbose => { i with verbose := true }

/-- The text is a way to write the value: a path or a target as it is, a count with or without a plus
sign and leading zeros. -/
def WrittenAs : Setting → String → Prop
  | .config path, value => value = path ∧ path ≠ ""
  | .target s, value => value = s
  | .requests n, value => Numeral.Denotes value.toList n.toNat
  | .concurrency n, value => Numeral.Denotes value.toList n.toNat
  | .queueMultiplier n, value => Numeral.Denotes value.toList n.toNat
  | .failFast, _ => False
  | .json, _ => False
  | .verbose, _ => False

end Setting

/-- A value on its own does not start with a dash, unless it is nothing but a dash. -/
def IsSeparate (value : String) : Prop :=
  value.toList.head? = some '-' → value = "-"

/-- What may follow the dash in front of short options, and the arguments after it: options without
a value, and perhaps one with a value at the end. -/
inductive Cluster : List Char → List String → List Setting → Prop where
  | nil : Cluster [] [] []
  | plain {c : Char} {cs : List Char} {arguments : List String} {s : Setting}
      {settings : List Setting} (hname : s.flag.short? = some c) (hplain : s.flag.value? = none)
      (h : Cluster cs arguments settings) : Cluster (c :: cs) arguments (s :: settings)
  | attached {c : Char} {value : String} {s : Setting} (hname : s.flag.short? = some c)
      (hvalue : s.WrittenAs value) (hne : value ≠ "") (hhead : value.toList.head? ≠ some '=') :
      Cluster (c :: value.toList) [] [s]
  | equals {c : Char} {value : String} {s : Setting} (hname : s.flag.short? = some c)
      (hvalue : s.WrittenAs value) : Cluster (c :: '=' :: value.toList) [] [s]
  | separate {c : Char} {value : String} {s : Setting} (hname : s.flag.short? = some c)
      (hvalue : s.WrittenAs value) (hseparate : IsSeparate value) : Cluster [c] [value] [s]

/-- The arguments that write one option, or short ones that are written together. -/
inductive Spelling : List String → List Setting → Prop where
  | plain {s : Setting} (hplain : s.flag.value? = none) : Spelling ["--" ++ s.flag.long] [s]
  | equals {value : String} {s : Setting} (hvalue : s.WrittenAs value) :
      Spelling ["--" ++ s.flag.long ++ "=" ++ value] [s]
  | separate {value : String} {s : Setting} (hvalue : s.WrittenAs value)
      (hseparate : IsSeparate value) : Spelling ["--" ++ s.flag.long, value] [s]
  | short {cs : List Char} {arguments : List String} {settings : List Setting} (hne : cs ≠ [])
      (h : Cluster cs arguments settings) :
      Spelling (String.ofList ('-' :: cs) :: arguments) settings

/-- The arguments of a command line that gives these options in this order. -/
inductive Writes : List String → List Setting → Prop where
  | nil : Writes [] []
  | terminator : Writes ["--"] []
  | cons {arguments more : List String} {settings others : List Setting}
      (h : Spelling arguments settings) (hmore : Writes more others) :
      Writes (arguments ++ more) (settings ++ others)

/-- None of the options is given yet, and none of them twice. -/
def Fresh : Invocation → List Setting → Prop
  | _, [] => True
  | i, s :: settings => i.has s.flag = false ∧ Fresh (s.put i) settings

variable {i i' : Invocation} {flag : Flag} {value : String} {c : Char} {s : Setting}
  {settings others : List Setting}

theorem IsSeparate.ne_terminator (h : IsSeparate value) : value ≠ "--" := by
  rintro rfl
  exact absurd (h rfl) (by decide)

/-! ### Options -/

namespace Flag

theorem ofLong?_long (flag : Flag) : ofLong? flag.long = some flag := by
  cases flag <;> decide

theorem long_of_ofLong? {name : String} (h : ofLong? name = some flag) : flag.long = name := by
  simpa using List.find?_some h

theorem ofShort?_eq_some : ofShort? c = some flag ↔ flag.short? = some c := by
  constructor
  · intro h
    simpa using List.find?_some h
  · intro h
    cases flag <;> cases h <;> decide

theorem splitLong_long (flag : Flag) :
    Invocation.Reading.splitLong flag.long.toList = (flag.long, none) := by
  cases flag <;> decide

theorem not_mem_long (flag : Flag) : '=' ∉ flag.long.toList := by
  cases flag <;> decide

theorem short?_ne_dash (flag : Flag) : flag.short? ≠ some '-' := by
  cases flag <;> decide

theorem long_ne_empty (flag : Flag) : flag.long ≠ "" := by
  cases flag <;> decide

end Flag

namespace Setting

theorem has_put (i : Invocation) (s : Setting) (flag : Flag) :
    (s.put i).has flag = (i.has flag || decide (s.flag = flag)) := by
  cases s <;> cases flag <;> simp [put, Invocation.has, Setting.flag]

theorem WrittenAs.isSome (h : s.WrittenAs value) : s.flag.value?.isSome = true := by
  cases s <;> first | rfl | cases h

/-- Options commute, if they are not the same. -/
theorem put_comm {t : Setting} (h : s.flag ≠ t.flag) (i : Invocation) :
    t.put (s.put i) = s.put (t.put i) := by
  cases s <;> cases t <;> first | rfl | exact absurd rfl h

theorem foldl_put_perm (hperm : others.Perm settings) (hflags : (settings.map Setting.flag).Nodup)
    (i : Invocation) : others.foldl put i = settings.foldl put i := by
  refine (hperm.symm.foldl_eq' (fun s hs t ht i => ?_) i).symm
  by_cases heq : s.flag = t.flag
  · rw [List.inj_on_of_nodup_map hflags hs ht heq]
  · exact put_comm heq i

end Setting

theorem fresh_append : Fresh i (settings ++ others) ↔
    Fresh i settings ∧ Fresh (settings.foldl Setting.put i) others := by
  induction settings generalizing i with
  | nil => simp [Fresh]
  | cons s settings ih => simp only [List.cons_append, Fresh, ih, List.foldl_cons, and_assoc]

theorem fresh_iff : Fresh i settings ↔
    (settings.map Setting.flag).Nodup ∧ ∀ s ∈ settings, i.has s.flag = false := by
  induction settings generalizing i with
  | nil => simp [Fresh]
  | cons s settings ih =>
    simp only [Fresh, ih, List.map_cons, List.nodup_cons, List.forall_mem_cons, Setting.has_put,
      Bool.or_eq_false_iff, decide_eq_false_iff_not, List.mem_map]
    constructor
    · rintro ⟨hs, hnodup, hrest⟩
      exact ⟨⟨fun ⟨t, ht, heq⟩ => (hrest t ht).2 heq.symm, hnodup⟩, hs, fun t ht => (hrest t ht).1⟩
    · rintro ⟨⟨hnotin, hnodup⟩, hs, hrest⟩
      exact ⟨hs, hnodup, fun t ht => ⟨hrest t ht, fun heq => hnotin ⟨t, ht, heq.symm⟩⟩⟩

namespace Invocation

theorem readCount_eq_ok {n : UInt64} :
    readCount flag value = .ok n ↔ Numeral.Denotes value.toList n.toNat := by
  rw [← Numeral.readUInt64_eq_ok]
  unfold readCount
  cases Numeral.readUInt64 value.toList with
  | error fault => exact iff_of_false nofun nofun
  | ok m => simp [Except.mapError]

theorem map_readCount_eq_ok {f : UInt64 → Invocation} : (readCount flag value).map f = .ok i' ↔
    ∃ n, Numeral.Denotes value.toList n.toNat ∧ i' = f n := by
  have hcount : ∀ {n}, Numeral.Denotes value.toList n.toNat ↔ readCount flag value = .ok n :=
    readCount_eq_ok.symm
  simp only [hcount]
  cases readCount flag value with
  | error stop => exact iff_of_false nofun nofun
  | ok n => simp [Except.map, eq_comm]

theorem assign_eq_ok : i.assign flag value = .ok i' ↔
    i.has flag = false ∧ ∃ s : Setting, s.flag = flag ∧ s.WrittenAs value ∧ i' = s.put i := by
  unfold assign
  by_cases hhas : i.has flag = true
  · simp [hhas]
  rw [if_neg hhas, and_iff_right (Bool.eq_false_iff.2 hhas)]
  constructor
  · intro h
    cases flag with
    | config =>
      simp only at h
      split_ifs at h with hempty
      cases h
      exact ⟨.config value, rfl, ⟨rfl, fun heq => hempty (by simp [heq])⟩, rfl⟩
    | target =>
      cases h
      exact ⟨.target value, rfl, rfl, rfl⟩
    | requests =>
      obtain ⟨n, hn, rfl⟩ := map_readCount_eq_ok.1 h
      exact ⟨.requests n, rfl, hn, rfl⟩
    | concurrency =>
      obtain ⟨n, hn, rfl⟩ := map_readCount_eq_ok.1 h
      exact ⟨.concurrency n, rfl, hn, rfl⟩
    | queueMultiplier =>
      obtain ⟨n, hn, rfl⟩ := map_readCount_eq_ok.1 h
      exact ⟨.queueMultiplier n, rfl, hn, rfl⟩
    | failFast | json | verbose | help | version => cases h
  · rintro ⟨s, rfl, hvalue, rfl⟩
    cases s with
    | config path =>
      obtain ⟨rfl, hne⟩ := hvalue
      exact if_neg fun hempty => hne (String.isEmpty_iff.1 hempty)
    | target t =>
      cases hvalue
      rfl
    | requests n | concurrency n | queueMultiplier n =>
      exact map_readCount_eq_ok.2 ⟨n, hvalue, rfl⟩
    | failFast | json | verbose => cases hvalue

theorem raise_eq_ok : i.raise flag = .ok i' ↔ i.has flag = false ∧
    ∃ s : Setting, s.flag = flag ∧ flag.value? = none ∧ i' = s.put i := by
  unfold raise
  by_cases hhas : i.has flag = true
  · simp [hhas]
  rw [if_neg hhas, and_iff_right (Bool.eq_false_iff.2 hhas)]
  constructor
  · intro h
    cases flag with
    | failFast =>
      cases h
      exact ⟨.failFast, rfl, rfl, rfl⟩
    | json =>
      cases h
      exact ⟨.json, rfl, rfl, rfl⟩
    | verbose =>
      cases h
      exact ⟨.verbose, rfl, rfl, rfl⟩
    | config | target | requests | concurrency | queueMultiplier | help | version => cases h
  · rintro ⟨s, rfl, hplain, rfl⟩
    cases s with
    | failFast | json | verbose => rfl
    | config | target | requests | concurrency | queueMultiplier => cases hplain

end Invocation

end LoadGenerator
