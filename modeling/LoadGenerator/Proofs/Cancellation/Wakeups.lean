import LoadGenerator.Proofs.Cancellation.Families

/-!
# Contexts are cancelled once, and nobody sleeps through it

A session looks at a context again whenever a wait is polled. In a `Watch` every family counts its
changes, and a wait sleeps on the version that it has seen until it is notified; then it looks again
if the version is another one. A wait that sleeps has nothing to see (`Informed`), so both kinds of
session always come to the same (`Watch.Session.run_plain`), and whoever waits at a family that has
been cancelled has been notified (`Watch.Session.Attentive.notified`). The main theorem `write_once`
puts this together with what the ledger says: a family of contexts is a cell that is written once.
-/

namespace LoadGenerator.Contexts

open Session (Action)

/-- The cancellation of a family, and the number of its changes. -/
structure Channel where
  reason : Option CancelReason := none
  version : Nat := 0
  deriving DecidableEq, Repr

/-- A wait that has seen a version of a channel, and whether it has been notified since. -/
structure Reader where
  id : Nat
  channel : Nat
  seen : Nat
  notified : Bool := false
  deriving DecidableEq, Repr

/-- A reader that sleeps has seen all that there is, one that has been notified has not. -/
structure Reader.Informed (r : Reader) (c : Channel) : Prop where
  asleep : r.notified = false → r.seen = c.version ∧ c.reason = none
  woken : r.notified = true → r.seen < c.version

/-- Channels, which of them each context belongs to, and who waits for a change of one. -/
structure Watch where
  channels : List Channel := [{}]
  /-- for each context its channel -/
  members : List Nat := [0]
  readers : List Reader := []
  deriving DecidableEq, Repr

namespace Watch

def channelOf (w : Watch) (i : Nat) : Nat :=
  (w.members[i]?).getD 0

def channel (w : Watch) (f : Nat) : Channel :=
  (w.channels[f]?).getD {}

def new (w : Watch) : Watch :=
  { w with channels := w.channels ++ [{}], members := w.members ++ [w.channels.length] }

def clone (w : Watch) (i : Nat) : Watch :=
  { w with members := w.members ++ [w.channelOf i] }

/-- Changes the channel of a context if it has not been changed before, and notifies its readers. -/
def cancel (w : Watch) (i : Nat) (reason : CancelReason) : Watch :=
  if (w.channel (w.channelOf i)).reason.isSome then w
  else { w with
    channels := w.channels.modify (w.channelOf i) fun c => ⟨some reason, c.version + 1⟩
    readers := w.readers.map fun r =>
      if r.channel = w.channelOf i then { r with notified := true } else r }

def forget (w : Watch) (id : Nat) : Watch :=
  { w with readers := w.readers.filter (·.id != id) }

/-- Looks at a channel, and falls asleep on its version if there is nothing to see. -/
def look (w : Watch) (id f : Nat) : Watch × Option CancelReason :=
  match (w.channel f).reason with
  | some reason => (w.forget id, some reason)
  | none =>
    ({ w with readers := (w.forget id).readers ++ [⟨id, f, (w.channel f).version, false⟩] }, none)

/-- A reader that was notified for nothing falls asleep again. -/
def rearm (w : Watch) (reader : Reader) : Watch :=
  { w with readers := w.readers.map fun r => if r = reader then { r with notified := false } else r }

/-- A wait looks when it begins, and after that only when it has been notified of another version. -/
def attempt : Waitlist.Attempt Watch Nat CancelReason := fun w id i =>
  match w.readers.find? fun r => r.id == id && r.channel == w.channelOf i with
  | none => w.look id (w.channelOf i)
  | some r =>
    if !r.notified then (w, none)
    else if (w.channel r.channel).version = r.seen then (w.rearm r, none)
    else w.look id (w.channelOf i)

/-- The contexts without versions and readers. -/
def contexts (w : Watch) : Contexts :=
  ⟨w.channels.map fun c => ⟨c.reason⟩, w.members⟩

structure Informed (w : Watch) : Prop where
  member : ∀ i, w.channelOf i < w.channels.length
  reader : ∀ r ∈ w.readers, r.Informed (w.channel r.channel)

/-- Somebody reads a channel for a wait. -/
def Listens (w : Watch) (id f : Nat) : Prop :=
  ∃ r ∈ w.readers, r.id = id ∧ r.channel = f

variable {w : Watch} {r : Reader} {i j id id' f : Nat} {reason : CancelReason}

/-! ### Looking -/

theorem channelOf_lt (h : ∀ f ∈ w.members, f < w.channels.length) (hpos : 0 < w.channels.length)
    (i : Nat) : w.channelOf i < w.channels.length := by
  unfold channelOf
  cases hi : w.members[i]? with
  | none => exact hpos
  | some f => exact h f (List.mem_of_getElem? hi)

theorem reason_contexts (w : Watch) (i : Nat) :
    (w.contexts.get i).reason = (w.channel (w.channelOf i)).reason := by
  have hfamily : w.contexts.family i = w.channelOf i := rfl
  unfold get
  rw [hfamily]
  simp only [contexts, channel, List.getElem?_map]
  cases w.channels[w.channelOf i]? <;> rfl

theorem Informed.forget (h : w.Informed) (id : Nat) : (w.forget id).Informed :=
  ⟨h.member, fun r hr => h.reader r (List.mem_filter.1 hr).1⟩

theorem Informed.look (h : w.Informed) (id f : Nat) :
    (w.look id f).1.Informed ∧ (w.look id f).1.contexts = w.contexts ∧
      (w.look id f).2 = (w.channel f).reason := by
  unfold Watch.look
  cases hreason : (w.channel f).reason with
  | some reason => exact ⟨h.forget id, rfl, rfl⟩
  | none =>
    refine ⟨⟨h.member, fun r hr => ?_⟩, rfl, rfl⟩
    rcases List.mem_append.1 hr with hr | hr
    · exact h.reader r (List.mem_filter.1 hr).1
    · obtain rfl := List.mem_singleton.1 hr
      exact ⟨fun _ => ⟨rfl, hreason⟩, fun hn => by cases hn⟩

/-- What a wait comes to is the same whether it looks or sleeps. -/
theorem Informed.attempt (h : w.Informed) (id i : Nat) :
    (w.attempt id i).1.Informed ∧ (w.attempt id i).1.contexts = w.contexts ∧
      (w.attempt id i).2 = (w.channel (w.channelOf i)).reason := by
  unfold Watch.attempt
  cases hfind : w.readers.find? fun r => r.id == id && r.channel == w.channelOf i with
  | none => exact h.look id _
  | some r =>
    have hchannel : r.channel = w.channelOf i := by
      have hr := List.find?_some hfind
      simp only [Bool.and_eq_true, beq_iff_eq] at hr
      exact hr.2
    have hinformed := h.reader r (List.mem_of_find?_eq_some hfind)
    simp only
    cases hn : r.notified with
    | false =>
      refine ⟨h, rfl, ?_⟩
      rw [← hchannel]
      exact (hinformed.asleep hn).2.symm
    | true =>
      have hne : ¬ (w.channel r.channel).version = r.seen := Nat.ne_of_gt (hinformed.woken hn)
      simp only [Bool.not_true, Bool.false_eq_true, if_false, if_neg hne]
      exact h.look id _

/-- Those who sleep until they are notified are answered when the others are. -/
theorem mirrors_attempt : Waitlist.Mirrors attempt Contexts.attempt contexts Informed where
  keeps w id i h := (h.attempt id i).1
  same w id i h := by
    obtain ⟨-, hcontexts, hanswer⟩ := h.attempt id i
    show (w.contexts, (w.contexts.get i).reason) = _
    rw [hcontexts, hanswer, reason_contexts]

/-! ### Changes -/

theorem channel_append (w : Watch) (f : Nat) :
    ({ w with channels := w.channels ++ [{}] } : Watch).channel f = w.channel f := by
  simp only [channel]
  rcases Nat.lt_trichotomy f w.channels.length with hf | rfl | hf
  · rw [List.getElem?_append_left hf]
  · rw [List.getElem?_concat_length, List.getElem?_eq_none (Nat.le_refl _)]
    rfl
  · rw [List.getElem?_eq_none (Nat.le_of_lt hf), List.getElem?_eq_none]
    rw [List.length_append, List.length_singleton]
    exact hf

theorem channel_modify (hf : f < w.channels.length) (change : Channel → Channel) (g : Nat) :
    ({ w with channels := w.channels.modify f change } : Watch).channel g =
      if f = g then change (w.channel g) else w.channel g := by
  simp only [channel, List.getElem?_modify]
  by_cases hg : f = g
  · subst hg
    rw [List.getElem?_eq_getElem hf]
    simp
  · simp [hg]

theorem members_lt (h : w.Informed) {f : Nat} (hf : f ∈ w.members) : f < w.channels.length := by
  obtain ⟨i, hi⟩ := List.getElem?_of_mem hf
  have hlt := h.member i
  rw [channelOf, hi] at hlt
  exact hlt

namespace Informed

theorem new (h : w.Informed) : w.new.Informed := by
  refine ⟨channelOf_lt (fun f hf => ?_) ?_, fun r hr => ?_⟩
  · show f < (w.channels ++ [_]).length
    rw [List.length_append, List.length_singleton]
    rcases List.mem_append.1 hf with hf | hf
    · exact Nat.lt_succ_of_lt (members_lt h hf)
    · rw [List.mem_singleton.1 hf]
      exact Nat.lt_succ_self _
  · show 0 < (w.channels ++ [_]).length
    rw [List.length_append]
    exact Nat.succ_pos _
  · have hchannel : w.new.channel r.channel = w.channel r.channel := channel_append w r.channel
    rw [hchannel]
    exact h.reader r hr

theorem clone (h : w.Informed) (i : Nat) : (w.clone i).Informed := by
  refine ⟨channelOf_lt (fun f hf => ?_) (Nat.zero_lt_of_lt (h.member 0)), h.reader⟩
  rcases List.mem_append.1 hf with hf | hf
  · exact members_lt h hf
  · rw [List.mem_singleton.1 hf]
    exact h.member i

theorem cancel (h : w.Informed) (i : Nat) (reason : CancelReason) :
    (w.cancel i reason).Informed := by
  unfold Watch.cancel
  split
  · exact h
  rename_i hnone
  have hchannel := channel_modify (h.member i) fun c => ⟨some reason, c.version + 1⟩
  refine ⟨fun j => ?_, fun r hr => ?_⟩
  · show w.channelOf j < (w.channels.modify _ _).length
    rw [List.length_modify]
    exact h.member j
  · obtain ⟨r', hr', rfl⟩ := List.mem_map.1 hr
    have hinformed := h.reader r' hr'
    show Reader.Informed _ (channel { w with channels := w.channels.modify _ _ } _)
    by_cases hf : r'.channel = w.channelOf i
    · -- whoever read the channel had seen no more than the version before
      rw [if_pos hf, hchannel, if_pos hf.symm]
      refine ⟨fun hn => (by cases hn), fun _ => ?_⟩
      have hle : r'.seen ≤ (w.channel r'.channel).version := by
        cases hn : r'.notified with
        | false => exact Nat.le_of_eq (hinformed.asleep hn).1
        | true => exact Nat.le_of_lt (hinformed.woken hn)
      exact Nat.lt_succ_of_le hle
    · rw [if_neg hf, hchannel, if_neg (Ne.symm hf)]
      exact hinformed

end Informed

theorem contexts_new (w : Watch) : w.new.contexts = w.contexts.new.1 := by
  simp [new, contexts, Contexts.new]

theorem contexts_cancel (h : w.Informed) (i : Nat) (reason : CancelReason) :
    (w.cancel i reason).contexts = (w.contexts.cancel i reason).1 := by
  have hfamily : w.contexts.family i = w.channelOf i := rfl
  obtain ⟨c, hc⟩ : ∃ c, w.channels[w.channelOf i]? = some c :=
    ⟨_, List.getElem?_eq_getElem (h.member i)⟩
  have hchannel : w.channel (w.channelOf i) = c := by rw [channel, hc, Option.getD_some]
  unfold Watch.cancel Contexts.cancel
  rw [hfamily, hchannel]
  split
  · rename_i hsome
    refine congrArg (Contexts.mk · w.members) (List.ext_getElem? fun n => ?_)
    simp only [contexts, List.getElem?_modify, List.getElem?_map]
    by_cases hn : w.channelOf i = n
    · subst hn
      simp [hc, Cancellation.cancel, Cancellation.isCancelled, hsome]
    · simp [hn]
  · rename_i hnone
    refine congrArg (Contexts.mk · w.members) (List.ext_getElem? fun n => ?_)
    simp only [contexts, List.getElem?_modify, List.getElem?_map]
    by_cases hn : w.channelOf i = n
    · subst hn
      simp [hc, Cancellation.cancel, Cancellation.isCancelled, hnone]
    · simp [hn]

/-! ### Who listens -/

theorem channelOf_append (hi : i < w.members.length) (channels : List Channel) (f : Nat) :
    channelOf { w with channels, members := w.members ++ [f] } i = w.channelOf i := by
  simp only [channelOf, List.getElem?_append_left hi]

theorem listens_forget (h : w.Listens id f) (hne : id ≠ id') : (w.forget id').Listens id f := by
  obtain ⟨r, hr, rfl, hf⟩ := h
  exact ⟨r, List.mem_filter.2 ⟨hr, by simpa using hne⟩, rfl, hf⟩

theorem listens_cancel (h : w.Listens id f) (i : Nat) (reason : CancelReason) :
    (w.cancel i reason).Listens id f := by
  unfold cancel
  split
  · exact h
  · obtain ⟨r, hr, rfl, rfl⟩ := h
    refine ⟨_, List.mem_map_of_mem hr, ?_, ?_⟩ <;> split <;> rfl

theorem listens_look (h : w.Listens id f) (hne : id ≠ id') (g : Nat) :
    (w.look id' g).1.Listens id f := by
  obtain ⟨r, hr, hid, hf⟩ := listens_forget h hne
  unfold look
  split
  · exact ⟨r, hr, hid, hf⟩
  · exact ⟨r, List.mem_append_left _ hr, hid, hf⟩

theorem members_attempt (w : Watch) (id i : Nat) : (w.attempt id i).1.members = w.members := by
  unfold attempt look
  repeat' split
  all_goals rfl

theorem listens_attempt (h : w.Listens id f) (hne : id ≠ id') (i : Nat) :
    (w.attempt id' i).1.Listens id f := by
  unfold attempt
  split
  · exact listens_look h hne _
  split
  · exact h
  split
  · obtain ⟨r, hr, rfl, rfl⟩ := h
    refine ⟨_, List.mem_map_of_mem hr, ?_, ?_⟩ <;> split <;> rfl
  · exact listens_look h hne _

/-- A wait that is not answered goes on listening to the channel of its context. -/
theorem listens_attempt_self (h : (w.attempt id i).2 = none) :
    (w.attempt id i).1.Listens id (w.channelOf i) := by
  have hlook : (w.look id (w.channelOf i)).2 = none →
      (w.look id (w.channelOf i)).1.Listens id (w.channelOf i) := by
    unfold look
    split
    · intro hnone
      cases hnone
    · exact fun _ => ⟨_, List.mem_append_right _ (List.mem_singleton.2 rfl), rfl, rfl⟩
  unfold attempt at h ⊢
  split at h
  · exact hlook h
  rename_i r hfind
  have hr := List.find?_some hfind
  simp only [Bool.and_eq_true, beq_iff_eq] at hr
  have hlistens : w.Listens id (w.channelOf i) := ⟨r, List.mem_of_find?_eq_some hfind, hr⟩
  split
  · exact hlistens
  split
  · obtain ⟨r', hr', hid, hf⟩ := hlistens
    refine ⟨_, List.mem_map_of_mem hr', ?_, ?_⟩ <;> split <;> assumption
  · rename_i hn hne
    rw [if_neg hn, if_neg hne] at h
    exact hlook h

theorem channelOf_congr {w' : Watch} (h : w'.members = w.members) (i : Nat) :
    w'.channelOf i = w.channelOf i := by
  rw [channelOf, h, channelOf]

theorem members_cancel (w : Watch) (i : Nat) (reason : CancelReason) :
    (w.cancel i reason).members = w.members := by
  unfold cancel
  split <;> rfl

/-- When one wait has been tried, it and all others listen that go on waiting. -/
theorem listens_resolve {waits : Waitlist Nat CancelReason} (hnumbered : waits.Numbered)
    (hm : (id, i) ∈ waits.waiting)
    (h : ∀ r ∈ waits.waiting, r.1 ≠ id → w.Listens r.1 (w.channelOf r.2)) :
    ∀ r ∈ (waits.resolve id (w.attempt id i).2).waiting,
      (w.attempt id i).1.Listens r.1 ((w.attempt id i).1.channelOf r.2) := by
  intro r hr
  have hwaiting : r ∈ waits.waiting := Waitlist.mem_resolve hr
  rw [channelOf_congr (members_attempt w id i)]
  by_cases hid : r.1 = id
  · obtain rfl : r = (id, i) := Prod.ext hid (hnumbered.eq_of_mem hm (hid ▸ hwaiting))
    cases hanswer : (w.attempt id i).2 with
    | none => exact listens_attempt_self hanswer
    | some reason =>
      rw [hanswer] at hr
      exact absurd rfl (Waitlist.mem_withdraw.1 hr).2
  · exact listens_attempt (h r hwaiting hid) hid i

/-! ### Sessions in which waits sleep -/

structure Session where
  watch : Watch := {}
  waits : Waitlist Nat CancelReason := {}
  deriving Repr

namespace Session

def act (s : Watch.Session) : Action → Watch.Session
  | .new => { s with watch := s.watch.new }
  | .clone i => { s with watch := s.watch.clone i }
  | .cancel i reason => { s with watch := s.watch.cancel i reason }
  | .wait i =>
    let (watch, waits, _) := s.waits.request attempt s.watch i
    ⟨watch, waits⟩
  | .poll id =>
    let (watch, waits) := s.waits.poll attempt s.watch id
    ⟨watch, waits⟩
  | .drop id => ⟨s.watch.forget id, s.waits.withdraw id⟩

def run (s : Watch.Session) : List Action → Watch.Session
  | [] => s
  | action :: actions => (s.act action).run actions

def settle (s : Watch.Session) : Watch.Session :=
  let (watch, waits) := s.waits.settle attempt s.watch
  ⟨watch, waits⟩

/-- The session in which everyone looks again. -/
def plain (s : Watch.Session) : Contexts.Session :=
  ⟨s.watch.contexts, s.waits⟩

variable {s : Watch.Session} {action : Action}

theorem act_plain (h : s.watch.Informed) (action : Action) :
    (s.act action).watch.Informed ∧ (s.act action).plain = (s.plain.act action).1 := by
  cases action with
  | new =>
    refine ⟨h.new, ?_⟩
    simp only [act, plain, Contexts.Session.act, contexts_new]
  | clone i => exact ⟨h.clone i, rfl⟩
  | cancel i reason =>
    refine ⟨h.cancel i reason, ?_⟩
    simp only [act, plain, Contexts.Session.act, contexts_cancel h]
  | wait i =>
    obtain ⟨hinformed, hsame⟩ := mirrors_attempt.request h s.waits i
    refine ⟨hinformed, ?_⟩
    simp only [act, plain, Contexts.Session.act, hsame]
  | poll id =>
    obtain ⟨hinformed, hsame⟩ := mirrors_attempt.poll h s.waits id
    refine ⟨hinformed, ?_⟩
    simp only [act, plain, Contexts.Session.act, hsame]
  | drop id => exact ⟨h.forget id, rfl⟩

theorem settle_plain (h : s.watch.Informed) : s.settle.plain = s.plain.settle := by
  obtain ⟨-, hsame⟩ := mirrors_attempt.settle h s.waits
  simp only [settle, plain, Contexts.Session.settle, hsame]

/-- A session that has come of the ledger's actions, and whose waits all listen. -/
structure Attentive (l : Ledger) (s : Watch.Session) : Prop where
  informed : s.watch.Informed
  kept : Contexts.Session.Kept l s.plain
  listens : ∀ r ∈ s.waits.waiting, s.watch.Listens r.1 (s.watch.channelOf r.2)

namespace Attentive

variable {l : Ledger}

theorem start : Attentive {} {} :=
  ⟨⟨channelOf_lt (by simp) (by simp), fun _ hr => (by cases hr)⟩, .start, fun _ hr => (by cases hr)⟩

theorem member_lt (h : Attentive l s) {r : Nat × Nat} (hr : r ∈ s.waits.waiting) :
    r.2 < s.watch.members.length := by
  have hlength : s.watch.members.length = l.roots.length := h.kept.contexts.length
  rw [hlength]
  exact h.kept.sound.waits r (h.kept.waits.waiting r hr).1

theorem act (h : Attentive l s) (hn : l.Names action) :
    Attentive (l.note action) (s.act action) := by
  obtain ⟨hinformed, hplain⟩ := act_plain h.informed action
  refine ⟨hinformed, hplain ▸ h.kept.act hn, ?_⟩
  have hnumbered : s.waits.Numbered := h.kept.waits.numbered
  cases action with
  | new =>
    intro r hr
    have hchannel : s.watch.new.channelOf r.2 = s.watch.channelOf r.2 :=
      channelOf_append (h.member_lt hr) _ _
    show s.watch.new.Listens r.1 (s.watch.new.channelOf r.2)
    rw [hchannel]
    exact h.listens r hr
  | clone i =>
    intro r hr
    have hchannel : (s.watch.clone i).channelOf r.2 = s.watch.channelOf r.2 :=
      channelOf_append (h.member_lt hr) _ _
    show (s.watch.clone i).Listens r.1 ((s.watch.clone i).channelOf r.2)
    rw [hchannel]
    exact h.listens r hr
  | cancel i reason =>
    intro r hr
    show (s.watch.cancel i reason).Listens r.1 ((s.watch.cancel i reason).channelOf r.2)
    rw [channelOf_congr (members_cancel s.watch i reason)]
    exact listens_cancel (h.listens r hr) i reason
  | wait i =>
    have hentered := listens_resolve (w := s.watch) (hnumbered.enter i)
      (Waitlist.mem_enter.2 (.inr rfl)) fun r hr hid => h.listens r ?_
    · simp only [Session.act, Waitlist.request_eq attempt s.watch hnumbered]
      exact hentered
    · rcases Waitlist.mem_enter.1 hr with hr | rfl
      · exact hr
      · exact absurd rfl hid
  | poll id =>
    simp only [Session.act]
    rcases Waitlist.poll_cases attempt s.watch s.waits id with ⟨-, hpoll⟩ | ⟨i, hi, hpoll⟩
    · rw [hpoll]
      exact h.listens
    · rw [hpoll]
      exact listens_resolve hnumbered hi fun r hr _ => h.listens r hr
  | drop id =>
    intro r hr
    obtain ⟨hr, hne⟩ := Waitlist.mem_withdraw.1 hr
    exact listens_forget (h.listens r hr) hne

theorem run {actions : List Action} (h : Attentive l s) (hn : l.NamesAll actions) :
    Attentive (l.noteAll actions) (s.run actions) ∧ (s.run actions).plain = s.plain.run actions := by
  induction actions generalizing l s with
  | nil => exact ⟨h, rfl⟩
  | cons action actions ih =>
    obtain ⟨hattentive, hrun⟩ := ih (h.act hn.1) hn.2
    refine ⟨hattentive, hrun.trans ?_⟩
    rw [(act_plain h.informed action).2]
    rfl

/-- Whoever waits at a family that has been cancelled has been notified. -/
theorem notified (h : Attentive l s) (hm : (id, i) ∈ s.waits.waiting)
    (hgiven : (l.given (l.root i)).head? = some reason) :
    ∃ r ∈ s.watch.readers, r.id = id ∧ r.notified = true := by
  obtain ⟨r, hr, hid, hchannel⟩ := h.listens _ hm
  refine ⟨r, hr, hid, ?_⟩
  have hlt := h.kept.sound.waits _ (h.kept.waits.waiting _ hm).1
  have hreason : (s.watch.channel r.channel).reason = some reason := by
    rw [hchannel, ← reason_contexts, ← hgiven]
    exact h.kept.contexts.report i hlt
  cases hn : r.notified with
  | true => rfl
  | false =>
    rw [((h.informed.reader r hr).asleep hn).2] at hreason
    cases hreason

end Attentive

end Session

end Watch

/-! ### One family and the others -/

/-- The action is about the family that began with a context. -/
def Ledger.Concerns (l : Ledger) (root : Nat) : Action → Prop
  | .new => False
  | .clone i => l.root i = root
  | .cancel i _ => l.root i = root
  | .wait i => l.root i = root
  | .poll id => ∃ i, (id, i) ∈ l.waits ∧ l.root i = root
  | .drop id => ∃ i, (id, i) ∈ l.waits ∧ l.root i = root

namespace Session.Kept

variable {l : Ledger} {s : Session} {action : Action} {i id : Nat}

theorem get_of_not_concerns (h : Kept l s) (hn : l.Names action) (hi : i < l.roots.length)
    (hother : ¬ l.Concerns (l.root i) action) :
    (s.act action).1.contexts.get i = s.contexts.get i := by
  have hgiven : (l.note action).given (l.root i) = l.given (l.root i) := by
    cases action with
    | cancel j reason =>
      have hne : ¬ l.root j = l.root i := hother
      simp only [Ledger.note, Ledger.given_append, if_neg hne, List.append_nil]
    | new | clone | wait | poll | drop => rfl
  have hreport := (h.act hn).contexts.report i (Nat.lt_of_lt_of_le hi (l.length_roots_note action))
  rw [Ledger.root_note hi, hgiven, ← h.contexts.report i hi] at hreport
  exact congrArg Cancellation.mk hreport

/-- Neither is a wait of another family answered, nor does it stop waiting. -/
theorem wait_of_not_concerns (h : Kept l s) (hi : (id, i) ∈ l.waits)
    (hother : ¬ l.Concerns (l.root i) action) :
    ((id, i) ∈ (s.act action).1.waits.waiting ↔ (id, i) ∈ s.waits.waiting) ∧
      ∀ reason, (id, reason) ∈ (s.act action).1.waits.answered ↔
        (id, reason) ∈ s.waits.answered := by
  have hne : ∀ {id' : Nat}, ¬ (∃ j, (id', j) ∈ l.waits ∧ l.root j = l.root i) → id ≠ id' := by
    rintro _ hno rfl
    exact hno ⟨i, hi, rfl⟩
  cases action with
  | new | clone | cancel => exact ⟨.rfl, fun _ => .rfl⟩
  | wait j =>
    have hid : id ≠ s.waits.next := by
      have hle := h.sound.number_le (List.mem_map_of_mem hi)
      have hnext := h.waits.next
      simp only at hle
      omega
    rw [act_wait s h.waits.numbered]
    refine ⟨(mem_waiting_resolve hid _).trans ?_, fun reason => mem_answered_resolve hid _⟩
    rw [Waitlist.mem_enter, or_iff_left]
    exact fun he => hid (congrArg Prod.fst he)
  | poll id' =>
    have hid : id ≠ id' := hne hother
    obtain ⟨-, ⟨-, hwaits⟩ | ⟨j, -, hwaits⟩⟩ := s.act_poll id'
    · rw [hwaits]
      exact ⟨.rfl, fun _ => .rfl⟩
    · rw [hwaits]
      exact ⟨mem_waiting_resolve hid _, fun _ => mem_answered_resolve hid _⟩
  | drop id' =>
    have hid : id ≠ id' := hne hother
    exact ⟨Waitlist.mem_withdraw.trans (and_iff_left hid), fun _ => .rfl⟩

end Session.Kept

/-! ### Cells that are written once -/

/-- What a session shows when the ledger holds the actions that have led to it. -/
structure Session.WriteOnce (l : Ledger) (s : Session) : Prop where
  reason : ∀ i, i < l.roots.length → (s.contexts.get i).reason = (l.given (l.root i)).head?
  isCancelled : ∀ i, i < l.roots.length →
    (s.contexts.get i).isCancelled = !(l.given (l.root i)).isEmpty
  counts : ∀ i reason, i < l.roots.length →
    (s.act (.cancel i reason)).2 = .cancelled (l.given (l.root i)).isEmpty
  lasting : ∀ i reason actions, i < l.roots.length → l.NamesAll actions →
    (s.contexts.get i).reason = some reason →
    ((s.run actions).contexts.get i).reason = some reason
  started : ∀ i, i < l.roots.length →
    (s.act (.wait i)).2 = .started (l.waits.length + 1) (l.given (l.root i)).head?
  completed : ∀ id i reason, (id, i) ∈ l.waits → (id, reason) ∈ s.waits.answered →
    (l.given (l.root i)).head? = some reason
  kept : ∀ id i, (id, i) ∈ l.waits → (id, i) ∈ s.waits.waiting ∨
    (∃ reason, (id, reason) ∈ s.waits.answered) ∨ id ∈ l.dropped
  polled : ∀ id i reason, (id, i) ∈ s.waits.waiting →
    (l.given (l.root i)).head? = some reason →
    (id, reason) ∈ (s.act (.poll id)).1.waits.answered
  settled : ∀ id i reason, (id, i) ∈ s.waits.waiting →
    (l.given (l.root i)).head? = some reason → (id, reason) ∈ s.settle.waits.answered
  waiting : ∀ id i, (id, i) ∈ s.settle.waits.waiting → l.given (l.root i) = []
  apart : ∀ action i, l.Names action → i < l.roots.length → ¬ l.Concerns (l.root i) action →
    (s.act action).1.contexts.get i = s.contexts.get i ∧
    ∀ id, (id, i) ∈ l.waits →
      ((id, i) ∈ (s.act action).1.waits.waiting ↔ (id, i) ∈ s.waits.waiting) ∧
      ∀ reason, (id, reason) ∈ (s.act action).1.waits.answered ↔ (id, reason) ∈ s.waits.answered

theorem Session.Kept.writeOnce {l : Ledger} {s : Session} (h : Kept l s) : WriteOnce l s where
  reason := h.contexts.report
  isCancelled i hi := by
    rw [Cancellation.isCancelled, h.contexts.report i hi]
    cases l.given (l.root i) <;> rfl
  counts i reason hi := by
    show Result.cancelled (s.contexts.get i).accepts = _
    rw [Cancellation.accepts, Cancellation.isCancelled, h.contexts.report i hi]
    cases l.given (l.root i) <;> rfl
  lasting i reason actions hi hn hreason := h.report_run hn hi hreason
  started i hi := by
    rw [act_wait s h.waits.numbered, h.waits.next, h.contexts.report i hi]
  completed id i reason hi ha := h.answered_eq hi ha
  kept id i hi := h.waits.kept (id, i) hi
  polled id i reason hm hgiven := h.answered_poll hm hgiven
  settled id i reason hm hgiven := h.answered_settle hm hgiven
  waiting id i hm := h.given_eq_nil hm
  apart action i hn hi hother :=
    ⟨h.get_of_not_concerns hn hi hother, fun _ hwait => h.wait_of_not_concerns hwait hother⟩

/-- Whatever is done with contexts, each family is a cell that is written once: all members report the
first reason given to one of them, only the cancellation that gave it counts, waits are answered with
it and not left waiting, and other families have no part in it. It makes no difference that waits
sleep until their family changes: all that have something to see have been notified. -/
theorem write_once {actions : List Action} (h : ({} : Ledger).NamesAll actions) :
    let l := ({} : Ledger).noteAll actions
    let s := ({} : Session).run actions
    let sleepy := ({} : Watch.Session).run actions
    Session.WriteOnce l s ∧ sleepy.plain = s ∧ sleepy.settle.plain = s.settle ∧
      ∀ id i reason, (id, i) ∈ s.waits.waiting → (l.given (l.root i)).head? = some reason →
        ∃ r ∈ sleepy.watch.readers, r.id = id ∧ r.notified = true := by
  intro l s sleepy
  have hkept : Session.Kept l s := Session.Kept.start.run h
  obtain ⟨hattentive, hplain⟩ := Watch.Session.Attentive.start.run h
  have hsame : sleepy.plain = s := hplain
  refine ⟨hkept.writeOnce, hsame, ?_, fun id i reason hm hgiven => ?_⟩
  · rw [Watch.Session.settle_plain hattentive.informed]
    exact congrArg Session.settle hsame
  · rw [← hsame] at hm
    exact hattentive.notified hm hgiven

/-- A clone of a clone is cancelled while a wait at the first context, one at another family and a
dropped one are there; it is cancelled again through a clone made afterwards. -/
theorem write_once_clones :
    let actions : List Action := [.clone 0, .clone 1, .new, .wait 0, .wait 3, .wait 1, .drop 3,
      .cancel 2 .interrupted, .clone 2, .cancel 4 (.transportFailure "a:1" "refused")]
    let l := ({} : Ledger).noteAll actions
    let s := ({} : Session).run actions
    ({} : Ledger).NamesAll actions ∧ Session.WriteOnce l s ∧
      l.given (l.root 1) = [.interrupted, .transportFailure "a:1" "refused"] ∧
      (s.contexts.get 4).reason = some .interrupted ∧ (s.contexts.get 3).reason = none ∧
      s.waits.waiting = [(1, 0), (2, 3)] ∧ (1, .interrupted) ∈ s.settle.waits.answered := by
  intro actions l s
  have hnames : ({} : Ledger).NamesAll actions := by decide
  have hgiven : l.given (l.root 1) = [.interrupted, .transportFailure "a:1" "refused"] := by
    decide +kernel
  have hwaiting : s.waits.waiting = [(1, 0), (2, 3)] := by decide +kernel
  obtain ⟨honce, -⟩ := write_once hnames
  refine ⟨hnames, honce, hgiven, honce.reason 4 (by decide), honce.reason 3 (by decide), hwaiting,
    honce.settled 1 0 .interrupted ?_ rfl⟩
  rw [hwaiting]
  exact List.mem_cons_self

end LoadGenerator.Contexts
