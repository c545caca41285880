import LoadGenerator.Waitlist
import Mathlib.Data.List.Nodup

/-!
# Requests and their numbers

The numbers of a waitlist that has been used as intended are `Numbered`: the waiting ones ascend, and
none is waiting and answered at once. Making a request is to `enter` it and to try it, polling is to
try it; what comes of a try is the same for both (`resolve`). `settle` ends with a pass that answers
nothing, so an attempt that fails is as good as any later one (`settle_still`).
-/

namespace LoadGenerator.Waitlist

variable {σ ω β : Type} {attempt : Attempt σ ω β} {s : σ} {w : Waitlist ω β} {id : Nat} {what : ω}

/-- The requests with one more that waits. -/
def enter (w : Waitlist ω β) (what : ω) : Waitlist ω β :=
  { w with next := w.next + 1, waiting := w.waiting ++ [(w.next, what)] }

/-- The requests after a waiting one has been tried. -/
def resolve (w : Waitlist ω β) (id : Nat) : Option β → Waitlist ω β
  | none => w
  | some b => { w with
      waiting := w.waiting.filter (·.1 != id), answered := w.answered ++ [(id, b)] }

/-- The numbers of the waiting requests of some kind. -/
def ids (w : Waitlist ω β) (p : ω → Bool) : List Nat :=
  (w.waiting.filter fun r => p r.2).map Prod.fst

structure Numbered (w : Waitlist ω β) : Prop where
  sorted : (w.waiting.map Prod.fst).Pairwise (· < ·)
  fresh : ∀ r ∈ w.waiting, r.1 < w.next
  old : ∀ a ∈ w.answered, a.1 < w.next
  apart : ∀ a ∈ w.answered, ∀ r ∈ w.waiting, r.1 ≠ a.1
  once : (w.answered.map Prod.fst).Nodup

theorem mem_ids {p : ω → Bool} : id ∈ w.ids p ↔ ∃ what, (id, what) ∈ w.waiting ∧ p what = true := by
  simp [ids]

/-! ### Numbers -/

namespace Numbered

theorem nil : Numbered ({} : Waitlist ω β) := by
  constructor <;> simp

theorem nodup (h : w.Numbered) : (w.waiting.map Prod.fst).Nodup :=
  h.sorted.imp fun hlt => Nat.ne_of_lt hlt

theorem eq_of_mem (h : w.Numbered) {what' : ω} (hm : (id, what) ∈ w.waiting)
    (hm' : (id, what') ∈ w.waiting) : what' = what :=
  congrArg Prod.snd (List.inj_on_of_nodup_map h.nodup hm' hm rfl)

theorem next_ne (h : w.Numbered) {r : Nat × ω} (hr : r ∈ w.waiting) : r.1 ≠ w.next :=
  Nat.ne_of_lt (h.fresh r hr)

theorem enter (h : w.Numbered) (what : ω) : (w.enter what).Numbered := by
  refine ⟨?_, fun r hr => ?_, fun a ha => Nat.lt_succ_of_lt (h.old a ha), fun a ha r hr => ?_, h.once⟩
  · show ((w.waiting ++ [(w.next, what)]).map Prod.fst).Pairwise (· < ·)
    rw [List.map_append, List.pairwise_append]
    refine ⟨h.sorted, List.pairwise_singleton _ _, fun a ha b hb => ?_⟩
    obtain ⟨r, hr, rfl⟩ := List.mem_map.1 ha
    obtain rfl := List.mem_singleton.1 hb
    exact h.fresh r hr
  · rcases List.mem_append.1 hr with hr | hr
    · exact Nat.lt_succ_of_lt (h.fresh r hr)
    · obtain rfl := List.mem_singleton.1 hr
      exact Nat.lt_succ_self _
  · rcases List.mem_append.1 hr with hr | hr
    · exact h.apart a ha r hr
    · obtain rfl := List.mem_singleton.1 hr
      exact Ne.symm (Nat.ne_of_lt (h.old a ha))

theorem withdraw (h : w.Numbered) (id : Nat) : (w.withdraw id).Numbered := by
  refine ⟨?_, fun r hr => h.fresh r (List.mem_filter.1 hr).1, h.old,
    fun a ha r hr => h.apart a ha r (List.mem_filter.1 hr).1, h.once⟩
  exact h.sorted.sublist (List.filter_sublist.map Prod.fst)

theorem resolve (h : w.Numbered) (hm : (id, what) ∈ w.waiting) (b : Option β) :
    (w.resolve id b).Numbered := by
  cases b with
  | none => exact h
  | some b =>
    obtain ⟨hsorted, hfresh, -⟩ := h.withdraw id
    refine ⟨hsorted, hfresh, fun a ha => ?_, fun a ha r hr => ?_, ?_⟩
    · rcases List.mem_append.1 ha with ha | ha
      · exact h.old a ha
      · obtain rfl := List.mem_singleton.1 ha
        exact h.fresh _ hm
    · obtain ⟨hr, hne⟩ := List.mem_filter.1 hr
      rcases List.mem_append.1 ha with ha | ha
      · exact h.apart a ha r hr
      · obtain rfl := List.mem_singleton.1 ha
        simpa using hne
    · show ((w.answered ++ [(id, b)]).map Prod.fst).Nodup
      rw [List.map_append]
      refine h.once.append (List.nodup_singleton _) fun n hn hid => ?_
      obtain ⟨a, ha, rfl⟩ := List.mem_map.1 hn
      exact h.apart a ha _ hm (List.mem_singleton.1 hid).symm

end Numbered

theorem mem_enter {r : Nat × ω} :
    r ∈ (w.enter what).waiting ↔ r ∈ w.waiting ∨ r = (w.next, what) := by
  simp [enter]

theorem mem_withdraw {r : Nat × ω} : r ∈ (w.withdraw id).waiting ↔ r ∈ w.waiting ∧ r.1 ≠ id := by
  simp [withdraw]

theorem ids_enter (p : ω → Bool) :
    (w.enter what).ids p = w.ids p ++ if p what then [w.next] else [] := by
  unfold ids enter
  cases h : p what <;> simp [h]

theorem ids_withdraw (h : w.Numbered) (id : Nat) (p : ω → Bool) :
    (w.withdraw id).ids p = (w.ids p).erase id := by
  have hnodup : (w.ids p).Nodup := h.nodup.sublist (List.filter_sublist.map Prod.fst)
  rw [hnodup.erase_eq_filter]
  simp only [ids, withdraw, List.filter_map, List.filter_filter]
  congr 2
  funext r
  exact Bool.and_comm _ _

theorem ids_resolve_some (h : w.Numbered) (p : ω → Bool) (b : β) :
    (w.resolve id (some b)).ids p = (w.ids p).erase id :=
  ids_withdraw h id p

theorem not_mem_ids (h : w.Numbered) {p : ω → Bool} (hm : (id, what) ∈ w.waiting)
    (hp : p what = false) : id ∉ w.ids p := by
  rintro hid
  obtain ⟨what', hm', hp'⟩ := mem_ids.1 hid
  rw [h.eq_of_mem hm hm', hp] at hp'
  cases hp'

theorem answered_resolve (w : Waitlist ω β) (id : Nat) (b : Option β) :
    (w.resolve id b).answered = w.answered ++ b.toList.map (id, ·) := by
  cases b with
  | none => exact (List.append_nil _).symm
  | some b => rfl

theorem mem_resolve {r : Nat × ω} {b : Option β} (hr : r ∈ (w.resolve id b).waiting) :
    r ∈ w.waiting := by
  cases b with
  | none => exact hr
  | some b => exact (mem_withdraw.1 hr).1

/-! ### Requests given up -/

/-- A request that has been made and will never be answered. -/
structure Gone (w : Waitlist ω β) (id : Nat) : Prop where
  old : id < w.next
  still : ∀ what, (id, what) ∉ w.waiting
  unanswered : ∀ b, (id, b) ∉ w.answered

namespace Gone

theorem of_withdraw (h : w.Numbered) (hm : (id, what) ∈ w.waiting) : (w.withdraw id).Gone id := by
  refine ⟨h.fresh _ hm, fun what hw => ?_, fun b hb => h.apart _ hb _ hm rfl⟩
  exact (mem_withdraw.1 hw).2 rfl

theorem enter (h : w.Gone id) (what : ω) : (w.enter what).Gone id := by
  refine ⟨Nat.lt_succ_of_lt h.old, fun what' hm => ?_, h.unanswered⟩
  rcases mem_enter.1 hm with hm | hm
  · exact h.still what' hm
  · cases hm
    exact Nat.lt_irrefl _ h.old

theorem withdraw (h : w.Gone id) (other : Nat) : (w.withdraw other).Gone id :=
  ⟨h.old, fun what hm => h.still what (mem_withdraw.1 hm).1, h.unanswered⟩

theorem resolve (h : w.Gone id) {other : Nat} (hm : (other, what) ∈ w.waiting) (b : Option β) :
    (w.resolve other b).Gone id := by
  have hold : (w.resolve other b).next = w.next := by cases b <;> rfl
  refine ⟨hold ▸ h.old, fun what hw => h.still what (mem_resolve hw), fun c hc => ?_⟩
  rw [answered_resolve] at hc
  rcases List.mem_append.1 hc with hc | hc
  · exact h.unanswered c hc
  · obtain ⟨_, -, he⟩ := List.mem_map.1 hc
    cases he
    exact h.still what hm

end Gone

/-! ### Trying -/

theorem request_eq (attempt : Attempt σ ω β) (s : σ) (h : w.Numbered) (what : ω) :
    w.request attempt s what =
      ((attempt s w.next what).1, (w.enter what).resolve w.next (attempt s w.next what).2,
        (attempt s w.next what).2) := by
  unfold request
  rcases attempt s w.next what with ⟨s', _ | b⟩
  · rfl
  · have hothers : w.waiting.filter (·.1 != w.next) = w.waiting :=
      List.filter_eq_self.2 fun r hr => by simpa using h.next_ne hr
    simp [resolve, enter, hothers]

theorem poll_cases (attempt : Attempt σ ω β) (s : σ) (w : Waitlist ω β) (id : Nat) :
    ((∀ what, (id, what) ∉ w.waiting) ∧ w.poll attempt s id = (s, w)) ∨
      ∃ what, (id, what) ∈ w.waiting ∧
        w.poll attempt s id = ((attempt s id what).1, w.resolve id (attempt s id what).2) := by
  unfold poll
  cases h : w.waiting.lookup id with
  | none =>
    refine .inl ⟨fun what hm => ?_, rfl⟩
    simpa using List.lookup_eq_none_iff.1 h _ hm
  | some what =>
    obtain ⟨l₁, l₂, hw, -⟩ := List.lookup_eq_some_iff.1 h
    refine .inr ⟨what, by rw [hw]; simp, ?_⟩
    dsimp only
    rcases attempt s id what with ⟨s', _ | b⟩ <;> rfl

theorem isWaiting_eq_true : w.isWaiting id = true ↔ ∃ what, (id, what) ∈ w.waiting := by
  simp [isWaiting]

theorem Numbered.poll (h : w.Numbered) (attempt : Attempt σ ω β) (s : σ) (id : Nat) :
    (w.poll attempt s id).2.Numbered := by
  rcases poll_cases attempt s w id with ⟨-, hpoll⟩ | ⟨what, hm, hpoll⟩ <;> rw [hpoll]
  · exact h
  · exact h.resolve hm _

/-! ### Settling -/

theorem length_poll (h : w.Numbered) (attempt : Attempt σ ω β) (s : σ) (id : Nat) :
    (w.poll attempt s id).2.waiting.length + (w.poll attempt s id).2.answered.length =
      w.waiting.length + w.answered.length := by
  rcases poll_cases attempt s w id with ⟨-, hpoll⟩ | ⟨what, hm, hpoll⟩ <;> rw [hpoll]
  cases (attempt s id what).2 with
  | none => rfl
  | some b =>
    -- the numbers are distinct, so only this request goes
    have hids := congrArg List.length (ids_withdraw h id fun _ => true)
    have hmem : id ∈ w.ids fun _ => true := mem_ids.2 ⟨what, hm, rfl⟩
    rw [List.length_erase_of_mem hmem] at hids
    have hpos := List.length_pos_of_mem hm
    simp only [ids, List.filter_true, List.length_map] at hids
    simp only [resolve, List.length_append, List.length_singleton]
    simp only [Waitlist.withdraw] at hids
    omega

theorem answered_le_poll (attempt : Attempt σ ω β) (s : σ) (w : Waitlist ω β) (id : Nat) :
    w.answered.length ≤ (w.poll attempt s id).2.answered.length := by
  rcases poll_cases attempt s w id with ⟨-, hpoll⟩ | ⟨what, -, hpoll⟩
  · exact Nat.le_of_eq (by rw [hpoll])
  · rw [hpoll]
    cases (attempt s id what).2 <;> simp [resolve]

theorem pollAll_cons (attempt : Attempt σ ω β) (s : σ) (w : Waitlist ω β) (id : Nat)
    (ids : List Nat) : w.pollAll attempt s (id :: ids) =
      (w.poll attempt s id).2.pollAll attempt (w.poll attempt s id).1 ids :=
  rfl

theorem pollAll_append (attempt : Attempt σ ω β) (s : σ) (w : Waitlist ω β) (ids more : List Nat) :
    w.pollAll attempt s (ids ++ more) =
      (w.pollAll attempt s ids).2.pollAll attempt (w.pollAll attempt s ids).1 more :=
  List.foldl_append

theorem length_pollAll (h : w.Numbered) (attempt : Attempt σ ω β) (s : σ) (ids : List Nat) :
    (w.pollAll attempt s ids).2.Numbered ∧ w.answered.length ≤
        (w.pollAll attempt s ids).2.answered.length ∧
      (w.pollAll attempt s ids).2.waiting.length + (w.pollAll attempt s ids).2.answered.length =
        w.waiting.length + w.answered.length := by
  induction ids generalizing s w with
  | nil => exact ⟨h, Nat.le_refl _, rfl⟩
  | cons id ids ih =>
    obtain ⟨hnumbered, hle, hlength⟩ := ih (h.poll attempt s id) (w.poll attempt s id).1
    rw [pollAll_cons]
    exact ⟨hnumbered, Nat.le_trans (answered_le_poll attempt s w id) hle,
      hlength.trans (length_poll h attempt s id)⟩

/-- Settling comes down to polling, and the last pass answers nothing. -/
theorem exists_last_pass (h : w.Numbered) (attempt : Attempt σ ω β) (s : σ) :
    ∃ ids s₀ w₀, w.pollAll attempt s ids = (s₀, w₀) ∧
      w.settle attempt s = w₀.pollAll attempt s₀ (w₀.waiting.map Prod.fst) ∧
      (w.settle attempt s).2.answered.length = w₀.answered.length := by
  have hpasses : ∀ fuel s (w : Waitlist ω β), w.Numbered → w.waiting.length < fuel →
      ∃ ids s₀ w₀, w.pollAll attempt s ids = (s₀, w₀) ∧
        passes attempt fuel s w = w₀.pollAll attempt s₀ (w₀.waiting.map Prod.fst) ∧
        (passes attempt fuel s w).2.answered.length = w₀.answered.length := by
    intro fuel
    induction fuel with
    | zero => exact fun s w _ hlt => absurd hlt (Nat.not_lt_zero _)
    | succ fuel ih =>
      intro s w h hlt
      obtain ⟨hnumbered, hle, hlength⟩ := length_pollAll h attempt s (w.waiting.map Prod.fst)
      simp only [passes]
      split
      · exact ⟨[], s, w, rfl, rfl, ‹_›⟩
      · -- a pass that answers a request leaves fewer for the next one
        have hne : (w.pollAll attempt s (w.waiting.map Prod.fst)).2.answered.length ≠
          w.answered.length := ‹_›
        obtain ⟨ids, s₀, w₀, hpoll, hlast, hquiet⟩ := ih _ _ hnumbered (by omega)
        refine ⟨w.waiting.map Prod.fst ++ ids, s₀, w₀, ?_, hlast, hquiet⟩
        rw [pollAll_append, hpoll]
  exact hpasses _ s w h (Nat.lt_succ_self _)

/-- An attempt that fails can be repeated, by oneself and after others have failed, and fails again
without any effect. -/
structure Patient (attempt : Attempt σ ω β) : Prop where
  again : ∀ s id what s', attempt s id what = (s', none) → attempt s' id what = (s', none)
  others : ∀ s id what s' id' what', attempt s id what = (s', none) →
    attempt s id' what' = (s, none) → attempt s' id' what' = (s', none)

theorem still_of_quiet (hp : Patient attempt) (h : w.Numbered) (s : σ) (ids : List Nat)
    (hquiet : (w.pollAll attempt s ids).2.answered.length = w.answered.length) :
    (w.pollAll attempt s ids).2 = w ∧ ∀ id what, (id, what) ∈ w.waiting →
      id ∈ ids ∨ attempt s id what = (s, none) →
      attempt (w.pollAll attempt s ids).1 id what = ((w.pollAll attempt s ids).1, none) := by
  induction ids generalizing s with
  | nil => exact ⟨rfl, fun id what _ hid => hid.resolve_left List.not_mem_nil⟩
  | cons i ids ih =>
    rw [pollAll_cons] at hquiet ⊢
    rcases poll_cases attempt s w i with ⟨hnone, hpoll⟩ | ⟨whati, hi, hpoll⟩
    · rw [hpoll] at hquiet ⊢
      obtain ⟨hw, hstill⟩ := ih s hquiet
      refine ⟨hw, fun id what hm hid => hstill id what hm (hid.imp_left fun hid => ?_)⟩
      exact (List.mem_cons.1 hid).resolve_left fun he => hnone what (he ▸ hm)
    cases ha : attempt s i whati with
    | mk s' b =>
    rw [ha] at hpoll
    rw [hpoll] at hquiet ⊢
    cases b with
    | some b =>
      have hle := (length_pollAll (h.resolve hi (some b)) attempt s' ids).2.1
      simp only [resolve, List.length_append, List.length_singleton] at hle
      have hquiet' : ((w.resolve i (some b)).pollAll attempt s' ids).2.answered.length =
        w.answered.length := hquiet
      simp only [resolve] at hquiet'
      omega
    | none =>
      obtain ⟨hw, hstill⟩ := ih s' hquiet
      refine ⟨hw, fun id what hm hid => hstill id what hm ?_⟩
      rcases hid with hid | hid
      · rcases List.mem_cons.1 hid with rfl | hid
        · rw [h.eq_of_mem hi hm]
          exact .inr (hp.again _ _ _ _ ha)
        · exact .inl hid
      · exact .inr (hp.others _ _ _ _ _ _ ha hid)

/-- When a waitlist has settled, no waiting request would be answered or change anything. -/
theorem settle_still (hp : Patient attempt) (h : w.Numbered) (s : σ) {id : Nat} {what : ω}
    (hm : (id, what) ∈ (w.settle attempt s).2.waiting) :
    attempt (w.settle attempt s).1 id what = ((w.settle attempt s).1, none) := by
  obtain ⟨ids, s₀, w₀, hpoll, hlast, hquiet⟩ := exists_last_pass h attempt s
  have hnumbered := (length_pollAll h attempt s ids).1
  rw [hpoll] at hnumbered
  rw [hlast] at hm hquiet ⊢
  obtain ⟨hw, hstill⟩ := still_of_quiet hp hnumbered s₀ _ hquiet
  rw [hw] at hm
  exact hstill id what hm (.inl (List.mem_map_of_mem hm))

/-! ### Two ways of trying -/

/-- `other` tries requests of a state of which `view` shows what `attempt` makes of it. -/
structure Mirrors {τ : Type} (other : Attempt τ ω β) (attempt : Attempt σ ω β) (view : τ → σ)
    (Ok : τ → Prop) : Prop where
  keeps : ∀ n id what, Ok n → Ok (other n id what).1
  same : ∀ n id what, Ok n →
    attempt (view n) id what = (view (other n id what).1, (other n id what).2)

namespace Mirrors

variable {τ : Type} {other : Attempt τ ω β} {view : τ → σ} {Ok : τ → Prop} {n : τ}

theorem request (h : Mirrors other attempt view Ok) (hn : Ok n) (w : Waitlist ω β) (what : ω) :
    Ok (w.request other n what).1 ∧ w.request attempt (view n) what =
      (view (w.request other n what).1, (w.request other n what).2) := by
  have hkeeps := h.keeps n w.next what hn
  unfold Waitlist.request
  rw [h.same n w.next what hn]
  generalize other n w.next what = result at hkeeps ⊢
  obtain ⟨n', _ | b⟩ := result <;> exact ⟨hkeeps, rfl⟩

theorem poll (h : Mirrors other attempt view Ok) (hn : Ok n) (w : Waitlist ω β) (id : Nat) :
    Ok (w.poll other n id).1 ∧
      w.poll attempt (view n) id = (view (w.poll other n id).1, (w.poll other n id).2) := by
  unfold Waitlist.poll
  cases w.waiting.lookup id with
  | none => exact ⟨hn, rfl⟩
  | some what =>
    have hkeeps := h.keeps n id what hn
    dsimp only
    rw [h.same n id what hn]
    generalize other n id what = result at hkeeps ⊢
    obtain ⟨n', _ | b⟩ := result <;> exact ⟨hkeeps, rfl⟩

theorem pollAll (h : Mirrors other attempt view Ok) (hn : Ok n) (w : Waitlist ω β)
    (ids : List Nat) : Ok (w.pollAll other n ids).1 ∧
      w.pollAll attempt (view n) ids = (view (w.pollAll other n ids).1, (w.pollAll other n ids).2) := by
  induction ids generalizing n w with
  | nil => exact ⟨hn, rfl⟩
  | cons id ids ih =>
    obtain ⟨hone, hpoll⟩ := h.poll hn w id
    rw [pollAll_cons, pollAll_cons, hpoll]
    exact ih hone _

theorem settle (h : Mirrors other attempt view Ok) (hn : Ok n) (w : Waitlist ω β) :
    Ok (w.settle other n).1 ∧
      w.settle attempt (view n) = (view (w.settle other n).1, (w.settle other n).2) := by
  have hpasses : ∀ fuel (n : τ) (w : Waitlist ω β), Ok n → Ok (passes other fuel n w).1 ∧
      passes attempt fuel (view n) w =
        (view (passes other fuel n w).1, (passes other fuel n w).2) := by
    intro fuel
    induction fuel with
    | zero => exact fun n w hn => ⟨hn, rfl⟩
    | succ fuel ih =>
      intro n w hn
      obtain ⟨hone, hpass⟩ := h.pollAll hn w (w.waiting.map Prod.fst)
      simp only [passes]
      rw [hpass]
      split
      · exact ⟨hone, rfl⟩
      · exact ih _ _ hone
  exact hpasses _ n w hn

end Mirrors

end LoadGenerator.Waitlist
