import LoadGenerator.Proofs.Json.Decimals
import LoadGenerator.Proofs.Json.Objects
import LoadGenerator.Proofs.Run.Completion
import LoadGenerator.Proofs.Timestamp.Reading
import LoadGenerator.Summary

/-!
# Summaries read back

The JSON text of the summary of a run is read from either layout, and read as the same summary: the
one that was written, but for the two real numbers in it and for a start that is not a proper moment
(`written_summary_read_back`). A run takes no more than 64 bits of seconds and, if it takes any time
at all, about a nanosecond or more, so neither number is too large to be read (`modest_figures`).
-/

namespace LoadGenerator

namespace Json

theorem spells_timestamp (t : Timestamp) : Spells timestamp (writeString t.write) t.carried := by
  intro blanks rest hblanks _
  rw [writeString_append]
  unfold timestamp text
  rw [onFirst_eq hblanks (by decide), if_pos rfl, string_escaped]
  simp only [bind, Except.bind, Timestamp.read_write]

end Json

namespace Summary

open Binary64

/-! ### The real numbers -/

theorem billion_bounds : one ≤ (ofCount 1000000000).units ∧
    (ofCount 1000000000).units ≤ 2 ^ 31 * one := by
  have hle := le_units_ofCount 1000000000
  have hge := units_ofQuotient_le (UInt64.toNat 1000000000)
  have hvalue : UInt64.toNat 1000000000 = 1000000000 := rfl
  rw [hvalue] at hle hge
  exact ⟨by omega, Nat.le_trans hge (Nat.mul_le_mul_right _ (by decide))⟩

/-- Nanoseconds in seconds. -/
theorem fraction_bounds (nanos : UInt64) :
    (((ofCount nanos).div (ofCount 1000000000)).getD zero).units ≤ 2 ^ 67 * one ∧
      (nanos ≠ 0 →
        one ≤ 2 ^ 34 * (((ofCount nanos).div (ofCount 1000000000)).getD zero).units) := by
  obtain ⟨hlow, hhigh⟩ := billion_bounds
  have hone := one_pos
  have hmost := units_ofCount_le nanos
  have hleast := one_le_units_ofCount (n := nanos)
  have hquotient : (ofCount nanos).units * one / (ofCount 1000000000).units ≤
      (ofCount nanos).units := by
    refine Nat.le_trans (Nat.div_le_div_left hlow hone) ?_
    rw [Nat.mul_div_cancel _ hone]
  have hremainder := Nat.lt_mul_div_succ ((ofCount nanos).units * one)
    (Nat.lt_of_lt_of_le hone hlow)
  have hup := (getD_ofUnits_bounds ((ofCount nanos).units * one) (ofCount 1000000000).units).2
  have hdown := le_getD_ofUnits (Nat.lt_of_le_of_lt (Nat.le_trans hquotient hmost)
    (mul_one_lt (show 2 ^ 65 < 2 ^ 66 by decide))) (by decide)
  unfold div
  generalize ofUnits ((ofCount nanos).units * one) (ofCount 1000000000).units = fraction at *
  generalize (ofCount nanos).units * one / (ofCount 1000000000).units = q at *
  refine ⟨by omega, fun hne => ?_⟩
  -- the quotient is not zero, so it is more than half of the exact one
  have hlt : (ofCount nanos).units < 2 ^ 31 * (q + 1) := by
    refine Nat.lt_of_mul_lt_mul_right (a := one) (Nat.lt_of_lt_of_le hremainder ?_)
    calc (ofCount 1000000000).units * (q + 1) ≤ 2 ^ 31 * one * (q + 1) :=
          Nat.mul_le_mul_right _ hhigh
      _ = 2 ^ 31 * (q + 1) * one := by ring
  have hlarge : 2 ^ 40 ≤ one := two_pow_le_one (by decide)
  have := hleast hne
  omega

theorem secondsOf_zero : secondsOf 0 0 = zero := by
  have hzero : zero.units = 0 := Nat.zero_mul _
  have hcount : ofCount 0 = zero := by
    unfold ofCount ofNat? ofQuotient
    rw [UInt64.toNat_zero, Nat.zero_mul, ofUnits_zero, Option.getD_some]
  unfold secondsOf div add
  simp only [hcount, hzero, Nat.zero_mul, Nat.add_zero, ofUnits_zero, Option.getD_some]

theorem secondsOf_bounds (seconds nanos : UInt64) : (secondsOf seconds nanos).negative = false ∧
    (secondsOf seconds nanos).units ≤ 2 ^ 70 * one ∧
    (secondsOf seconds nanos = zero ∨ one ≤ 2 ^ 35 * (secondsOf seconds nanos).units) := by
  obtain ⟨hfraction, hnanos⟩ := fraction_bounds nanos
  have hone := one_pos
  have hmost := units_ofCount_le seconds
  have hseconds := one_le_units_ofCount (n := seconds)
  have hnegative : (secondsOf seconds nanos).negative = false := by
    unfold secondsOf
    exact negative_add _ _
  have heq : secondsOf seconds nanos = ((ofCount seconds).add
      (((ofCount nanos).div (ofCount 1000000000)).getD zero)).getD zero := rfl
  generalize ((ofCount nanos).div (ofCount 1000000000)).getD zero = fraction at *
  have hsum : (ofCount seconds).units + fraction.units ≤ 2 ^ 68 * one := by omega
  have hup := units_add_le (ofCount seconds) fraction
  have hdown := le_units_add (Nat.lt_of_le_of_lt hsum
    (mul_one_lt (show 2 ^ 68 < 2 ^ 69 by decide))) (by decide)
  rw [← heq] at hup hdown
  refine ⟨hnegative, by omega, ?_⟩
  by_cases hs : seconds = 0
  · by_cases hn : nanos = 0
    · left
      rw [hs, hn]
      exact secondsOf_zero
    · have := hnanos hn
      exact .inr (by omega)
  · have := hseconds hs
    exact .inr (by omega)

/-- A rate over a time that is not zero. -/
theorem rate_bounds (processed : UInt64) {elapsed : Binary64}
    (h : one ≤ 2 ^ 35 * elapsed.units) :
    (((ofCount processed).div elapsed).getD zero).units ≤ 2 ^ 102 * one := by
  have hone := one_pos
  have hquotient : (ofCount processed).units * one / elapsed.units ≤ 2 ^ 100 * one := by
    refine Nat.div_le_of_le_mul ?_
    calc (ofCount processed).units * one ≤ 2 ^ 65 * one * (2 ^ 35 * elapsed.units) :=
          Nat.mul_le_mul (units_ofCount_le processed) h
      _ = elapsed.units * (2 ^ 100 * one) := by ring
  have hup := (getD_ofUnits_bounds ((ofCount processed).units * one) elapsed.units).2
  unfold div
  omega

variable {target : String} {totalRequests concurrency seconds nanos : UInt64} {counts : Snapshot}
  {startedAt : Timestamp} {s : Summary} {elapsed rate : Binary64}

theorem modest_of_le (hnegative : elapsed.negative = false)
    (h : elapsed.units ≤ 2 ^ 102 * one) : Decimal.Modest elapsed := by
  have hone := one_pos
  exact ⟨hnegative, by omega⟩

theorem modest_zero : Decimal.Modest zero := by
  refine modest_of_le rfl ?_
  have hzero : zero.units = 0 := Nat.zero_mul _
  rw [hzero]
  exact Nat.zero_le _

theorem of_new (h : new target totalRequests concurrency counts seconds nanos startedAt = .ok s) :
    s.startedAt = startedAt ∧ s.elapsedSecs = secondsOf seconds nanos ∧
      (s.requestsPerSecond = zero ∨ s.elapsedSecs ≠ zero ∧
        ∃ processed, s.requestsPerSecond = ((ofCount processed).div s.elapsedSecs).getD zero) := by
  unfold new at h
  generalize secondsOf seconds nanos = elapsed at *
  by_cases hzero : elapsed.isZero = true
  · simp only [if_pos hzero, bind, Except.bind] at h
    cases h
    exact ⟨rfl, rfl, .inl rfl⟩
  · have hne : elapsed ≠ zero := by
      rintro rfl
      exact hzero rfl
    simp only [if_neg hzero, bind, Except.bind] at h
    cases hprocessed : counts.processed with
    | error _ =>
      rw [hprocessed] at h
      cases h
    | ok processed =>
      rw [hprocessed] at h
      cases h
      refine ⟨rfl, rfl, .inr ⟨hne, processed, ?_⟩⟩
      dsimp only

theorem modest_figures
    (h : new target totalRequests concurrency counts seconds nanos startedAt = .ok s) :
    Decimal.Modest s.elapsedSecs ∧ Decimal.Modest s.requestsPerSecond := by
  obtain ⟨-, helapsed, hrate⟩ := of_new h
  obtain ⟨hnegative, hmost, hleast⟩ := secondsOf_bounds seconds nanos
  rw [← helapsed] at hnegative hmost hleast
  refine ⟨modest_of_le hnegative (by omega), ?_⟩
  obtain hzero | ⟨hne, processed, hrate⟩ := hrate
  · rw [hzero]
    exact modest_zero
  · rw [hrate]
    exact modest_of_le (negative_div (ofCount processed) s.elapsedSecs)
      (rate_bounds processed (hleast.resolve_left hne))

/-! ### Reading -/

/-- The draft that names every field, with real numbers of its own and with the moment that the
start is written as. -/
def draft (s : Summary) (elapsed rate : Binary64) : Draft where
  target := some s.target
  totalRequests := some s.totalRequests
  successes := some s.successes
  failures := some s.failures
  transportErrors := some s.transportErrors
  concurrency := some s.concurrency
  elapsedSecs := some elapsed
  requestsPerSecond := some rate
  startedAt := some s.startedAt.carried

/-- The summary that a draft of it makes. -/
def readAs (s : Summary) (elapsed rate : Binary64) : Summary :=
  { s with
    elapsedSecs := elapsed
    requestsPerSecond := rate
    startedAt := s.startedAt.carried }

theorem ofDraft_draft (s : Summary) (elapsed rate : Binary64) :
    ofDraft (s.draft elapsed rate) = .ok (s.readAs elapsed rate) :=
  rfl

theorem nodup_fields : (schema.fields.map (·.name)).Nodup := by
  decide

theorem fills_members
    (helapsed : Json.Spells Json.realValue (Decimal.write Json.realLayout s.elapsedSecs) elapsed)
    (hrate : Json.Spells Json.realValue (Decimal.write Json.realLayout s.requestsPerSecond) rate) :
    schema.Fills schema.empty s.members (s.draft elapsed rate) := by
  refine .cons (.ofOption nodup_fields 0 rfl rfl (Json.spells_string _)) ?_
  refine .cons (.ofOption nodup_fields 1 rfl rfl (Json.spells_count _)) ?_
  refine .cons (.ofOption nodup_fields 2 rfl rfl (Json.spells_count _)) ?_
  refine .cons (.ofOption nodup_fields 3 rfl rfl (Json.spells_count _)) ?_
  refine .cons (.ofOption nodup_fields 4 rfl rfl (Json.spells_count _)) ?_
  refine .cons (.ofOption nodup_fields 5 rfl rfl (Json.spells_count _)) ?_
  refine .cons (.ofOption nodup_fields 6 rfl rfl helapsed) ?_
  refine .cons (.ofOption nodup_fields 7 rfl rfl hrate) ?_
  refine .cons (.ofOption nodup_fields 8 rfl rfl (Json.spells_timestamp _)) ?_
  exact .nil

theorem ofJson_write
    (h : new target totalRequests concurrency counts seconds nanos startedAt = .ok s) :
    ∃ elapsed rate, ofJson s.toJson = .ok (s.readAs elapsed rate) ∧
      ofJson s.toPrettyJson = .ok (s.readAs elapsed rate) := by
  obtain ⟨helapsed, hrate⟩ := modest_figures h
  obtain ⟨elapsed, helapsed⟩ := Json.spells_write helapsed
  obtain ⟨rate, hrate⟩ := Json.spells_write hrate
  have hread : ∀ l : Json.Layout, ofJson (String.ofList (l.write s.members)) =
      .ok (s.readAs elapsed rate) :=
    Json.Schema.decode_write (fills_members helapsed hrate) (s.ofDraft_draft elapsed rate)
  refine ⟨elapsed, rate, ?_, ?_⟩
  · rw [toJson, ← Json.Layout.write_compact]
    exact hread _
  · rw [toPrettyJson, ← Json.Layout.write_pretty]
    exact hread _

/-- Whenever the counts of a run have a sum there is a summary of it. What is written for a summary,
on one line or with a line for each member, is read as one and the same summary. It has the target,
the counts and the start that were written, if the start is a proper moment; if not, its start is in
the next second. The real numbers need not be those that were written. -/
theorem written_summary_read_back (target : String) (totalRequests concurrency : UInt64)
    (counts : Snapshot) (seconds nanos : UInt64) (startedAt : Timestamp) :
    (∀ processed, counts.processed = .ok processed → ∃ s,
      new target totalRequests concurrency counts seconds nanos startedAt = .ok s) ∧
    ∀ s, new target totalRequests concurrency counts seconds nanos startedAt = .ok s →
      ∃ read : Summary, ofJson s.toJson = .ok read ∧ ofJson s.toPrettyJson = .ok read ∧
        read.target = s.target ∧ read.totalRequests = s.totalRequests ∧
        read.successes = s.successes ∧ read.failures = s.failures ∧
        read.transportErrors = s.transportErrors ∧ read.concurrency = s.concurrency ∧
        s.startedAt = startedAt ∧ (read.startedAt = s.startedAt ↔ startedAt.IsProper) ∧
        (¬ startedAt.IsProper → read.startedAt.seconds = s.startedAt.seconds + 1 ∧
          read.startedAt.nanos + 1000000000 = s.startedAt.nanos) := by
  constructor
  · intro processed hprocessed
    obtain ⟨s, hs, -⟩ := new_ok hprocessed
    exact ⟨s, hs⟩
  · intro s hs
    obtain ⟨elapsed, rate, hcompact, hpretty⟩ := ofJson_write hs
    obtain ⟨rfl, -⟩ := of_new hs
    exact ⟨s.readAs elapsed rate, hcompact, hpretty, rfl, rfl, rfl, rfl, rfl, rfl, rfl,
      Timestamp.carried_eq_iff, fun h => ⟨Timestamp.seconds_carried h, Timestamp.nanos_carried h⟩⟩

/-- A target full of escapes, the last leap second there can be, and a nanosecond for as many
requests as can be counted. -/
theorem written_summary_read_back_leap_second :
    ∃ s read : Summary,
      new "\"\\\n\x01\u00e9" 18446744073709551615 3 ⟨18446744073709551614, 1, 1⟩ 0 1
        ⟨8210266876799, 1999999999, by decide, by decide⟩ = .ok s ∧
      ofJson s.toJson = .ok read ∧ ofJson s.toPrettyJson = .ok read ∧
      read.target = s.target ∧ read.startedAt = s.startedAt := by
  have hback := written_summary_read_back "\"\\\n\x01\u00e9" 18446744073709551615 3
    ⟨18446744073709551614, 1, 1⟩ 0 1
    ⟨8210266876799, 1999999999, by decide, by decide⟩
  obtain ⟨s, hs⟩ := hback.1 18446744073709551615 (by decide)
  obtain ⟨read, hcompact, hpretty, htarget, -, -, -, -, -, -, hstarted, -⟩ := hback.2 s hs
  exact ⟨s, read, hs, hcompact, hpretty, htarget, hstarted.mpr (by decide)⟩

/-- A second and a third after 00:00:04 is written as a third of a second after 00:00:05, and is not
read as it was. -/
theorem startedAt_not_read_back :
    ∃ s read : Summary,
      new "localhost:80" 1 1 ⟨1, 0, 0⟩ 1 0 ⟨4, 1333333333, by decide, by decide⟩ = .ok s ∧
      ofJson s.toJson = .ok read ∧ ofJson s.toPrettyJson = .ok read ∧
      read.startedAt ≠ s.startedAt := by
  obtain ⟨s, hs, -⟩ := new_ok (show Snapshot.processed ⟨1, 0, 0⟩ = .ok 1 by decide)
  obtain ⟨elapsed, rate, hcompact, hpretty⟩ := ofJson_write hs
  refine ⟨s, s.readAs elapsed rate, hs, hcompact, hpretty, fun h => ?_⟩
  have hproper := Timestamp.carried_eq_iff.mp h
  rw [(of_new hs).1] at hproper
  exact absurd hproper (by decide)

end Summary

end LoadGenerator
