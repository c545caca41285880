import LoadGenerator.Config
import LoadGenerator.Proofs.Count

/-!
# What validating a configuration says

`Config.Check` lists the checks in their order, `Passes` says over the natural numbers what each of
them asks for, and `Reports` which error says that it fails. Validating a configuration finds
nothing exactly if it passes every check (`validate_eq_ok`), and finds the first one that it does
not pass otherwise (`validate_eq_error`).
-/

namespace LoadGenerator

namespace Config

/-- What is checked, in this order. -/
inductive Check where
  | concurrency
  | requestCount
  | multiplier
  | capacity
  | target
  deriving DecidableEq, Repr

def Check.all : List Check :=
  [.concurrency, .requestCount, .multiplier, .capacity, .target]

/-- The exact capacity that the queue of a run needs, which may exceed every count. -/
def queueSize (c : Config) : Nat :=
  c.concurrency.toNat * c.queueCapacityMultiplier.toNat

def Passes (c : Config) : Check → Prop
  | .concurrency => 1 ≤ c.concurrency.toNat
  | .requestCount => 1 ≤ c.totalRequests.toNat
  | .multiplier => 1 ≤ c.queueCapacityMultiplier.toNat
  | .capacity => c.queueSize ≤ WorkQueue.maxCapacity
  | .target => ∃ target, Target.parse c.target = .ok target

instance (c : Config) : DecidablePred c.Passes
  | .concurrency => inferInstanceAs (Decidable (1 ≤ c.concurrency.toNat))
  | .requestCount => inferInstanceAs (Decidable (1 ≤ c.totalRequests.toNat))
  | .multiplier => inferInstanceAs (Decidable (1 ≤ c.queueCapacityMultiplier.toNat))
  | .capacity => inferInstanceAs (Decidable (c.queueSize ≤ WorkQueue.maxCapacity))
  | .target =>
    match h : Target.parse c.target with
    | .ok target => .isTrue ⟨target, h⟩
    | .error _ => .isFalse fun ⟨_, ht⟩ => by rw [h] at ht; cases ht

/-- The first check that the configuration does not pass. -/
def firstFailure? (c : Config) : Option Check :=
  Check.all.find? fun check => !decide (c.Passes check)

/-- The error that says that a check fails. -/
inductive Reports (c : Config) : Check → ConfigError → Prop
  | concurrency : Reports c .concurrency (.concurrency "concurrency must be at least 1")
  | requestCount : Reports c .requestCount (.requestCount "total requests must be at least 1")
  | multiplier :
      Reports c .multiplier (.queueCapacity "queue capacity multiplier must be at least 1")
  | capacity :
      Reports c .capacity (.queueCapacity
        (s!"concurrency {c.concurrency} x multiplier {c.queueCapacityMultiplier} exceeds the " ++
          s!"maximum queue capacity {WorkQueue.maxCapacity}"))
  | target {e : TargetError} (h : Target.parse c.target = .error e) :
      Reports c .target (.target (Error.config e.message).message)

variable {c : Config} {check : Check} {e e' : ConfigError}

theorem Reports.unique (h : c.Reports check e) (h' : c.Reports check e') : e = e' := by
  cases h with
  | concurrency => cases h'; rfl
  | requestCount => cases h'; rfl
  | multiplier => cases h'; rfl
  | capacity => cases h'; rfl
  | target h =>
    cases h' with
    | target h' =>
      rw [h] at h'
      cases h'
      rfl

theorem firstFailure?_eq_none : c.firstFailure? = none ↔ ∀ check, c.Passes check := by
  unfold firstFailure?
  rw [List.find?_eq_none]
  constructor
  · intro h check
    have hall : check ∈ Check.all := by cases check <;> decide
    simpa using h check hall
  · intro h check _
    simpa using h check

theorem one_le_toNat {n : UInt64} : 1 ≤ n.toNat ↔ ¬ n = 0 := by
  rw [Nat.one_le_iff_ne_zero]
  exact not_congr (UInt64.toNat_inj (a := n) (b := 0))

theorem parsedTarget_eq_ok {target : Target} :
    c.parsedTarget = .ok target ↔ Target.parse c.target = .ok target := by
  unfold parsedTarget
  cases Target.parse c.target with
  | ok parsed =>
    show (Except.ok parsed : Except Error Target) = .ok target ↔ _
    rw [Except.ok.injEq, Except.ok.injEq]
  | error e =>
    show (Except.error (Error.config e.message) : Except Error Target) = .ok target ↔ _
    exact ⟨nofun, nofun⟩

/-- Validating reports the first check that fails, if there is one. -/
theorem validate_cases (c : Config) :
    c.validate = .ok () ∧ c.firstFailure? = none ∨
      ∃ check e, c.validate = .error e ∧ c.firstFailure? = some check ∧ c.Reports check e := by
  have hconcurrency : c.Passes .concurrency ↔ ¬ c.concurrency = 0 := one_le_toNat
  have hcount : c.Passes .requestCount ↔ ¬ c.totalRequests = 0 := one_le_toNat
  have hmultiplier : c.Passes .multiplier ↔ ¬ c.queueCapacityMultiplier = 0 := one_le_toNat
  have hcapacity : c.Passes .capacity ↔
      (Count.mul c.concurrency c.queueCapacityMultiplier).any
        (·.toNat ≤ WorkQueue.maxCapacity) = true :=
    (Count.any_mul (by decide)).symm
  have htarget : c.Passes .target ↔ ∃ target, Target.parse c.target = .ok target := .rfl
  unfold validate firstFailure?
  simp only [Check.all, List.find?_cons, List.find?_nil, hconcurrency, hcount, hmultiplier,
    hcapacity, htarget]
  split
  · exact .inr ⟨_, _, rfl, by simp [*], .concurrency⟩
  split
  · exact .inr ⟨_, _, rfl, by simp [*], .requestCount⟩
  split
  · exact .inr ⟨_, _, rfl, by simp [*], .multiplier⟩
  split
  · exact .inr ⟨_, _, rfl, by simp_all, .capacity⟩
  unfold parsedTarget
  cases h : Target.parse c.target with
  | error e => exact .inr ⟨_, _, rfl, by simp [*], .target h⟩
  | ok target => exact .inl ⟨rfl, by simp [*]⟩

theorem validate_eq_ok : c.validate = .ok () ↔ ∀ check, c.Passes check := by
  rw [← firstFailure?_eq_none]
  rcases c.validate_cases with ⟨hok, hnone⟩ | ⟨check, e, herror, hsome, -⟩
  · exact iff_of_true hok hnone
  · refine iff_of_false ?_ ?_
    · rw [herror]
      simp
    · rw [hsome]
      simp

theorem validate_eq_error :
    c.validate = .error e ↔ ∃ check, c.firstFailure? = some check ∧ c.Reports check e := by
  rcases c.validate_cases with ⟨hok, hnone⟩ | ⟨check, e', herror, hsome, hreports⟩
  · rw [hok, hnone]
    simp
  · constructor
    · intro he
      rw [he] at herror
      cases herror
      exact ⟨check, hsome, hreports⟩
    · rintro ⟨check', hsome', hreports'⟩
      rw [hsome] at hsome'
      cases hsome'
      rw [herror, hreports.unique hreports']

/-- The target is looked at last. -/
example : ({ target := "nowhere", concurrency := 4 } : Config).firstFailure? = some .target := by
  decide +kernel

end Config

end LoadGenerator
