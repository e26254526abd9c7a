import Zmongo.Mcd.Integer

/-!
# Points in time, durations and timers

The functions of `mcd-time.h`.  Points in time and durations are numbers of microseconds, and where
an exact result does not fit it is saturated: `scaled_eq`, `later_eq` and `timeDifference_eq` say so
for the functions that compute one.  The exception is what the check of the difference misses, two
points in time that are `2 ^ 63` microseconds apart.

The clock is not part of the header, so what reads it takes the reading as an argument.  A timer
counts down with the clock, however often it is read (`watch_countsDown`), and the readings
of a clock that starts at zero are never `2 ^ 63` apart from where a timer expires.
-/

set_option autoImplicit false

open Zig IntType C

namespace Mcd

/-- `mcd_time_point` -/
@[ext] structure TimePoint where
  /-- Microseconds of the clock. -/
  rep : Int64
  deriving DecidableEq, Repr

/-- `mcd_duration` -/
@[ext] structure Duration where
  /-- Microseconds. -/
  rep : Int64
  deriving DecidableEq, Repr

/-- `MCD_TIME_POINT_MAX` -/
def TimePoint.max : TimePoint := ⟨Int64.ofInt int64Max⟩

/-- `MCD_TIME_POINT_MIN` -/
def TimePoint.min : TimePoint := ⟨Int64.ofInt int64Min⟩

/-- `MCD_DURATION_MAX` -/
def Duration.max : Duration := ⟨Int64.ofInt int64Max⟩

/-- `MCD_DURATION_MIN` -/
def Duration.min : Duration := ⟨Int64.ofInt int64Min⟩

/-! ## Durations -/

/-- `mcd_microseconds` -/
def microseconds (s : Int64) : Duration := ⟨s⟩

/-- The three constructors that multiply: `factor` units of `next`, or the bound on its side. -/
def scaled (factor : Int64) (next : Int64 → Option Duration) (s : Int64) : Option Duration := do
  if ← mulWouldOverflow s factor then pure (if s.toInt < 0 then .min else .max)
  else next (Int64.ofInt (← mul s.toInt factor.toInt))

/-- `mcd_milliseconds` -/
def milliseconds : Int64 → Option Duration := scaled 1000 fun s ↦ pure (microseconds s)

/-- `mcd_seconds` -/
def seconds : Int64 → Option Duration := scaled 1000 milliseconds

/-- `mcd_minutes` -/
def minutes : Int64 → Option Duration := scaled 60 seconds

/-- `mcd_get_milliseconds` -/
def getMilliseconds (d : Duration) : Option Int64 := do
  pure (Int64.ofInt (← div d.rep.toInt 1000))

/-- `mcd_duration_compare` -/
def durationCompare (left right : Duration) : ℤ :=
  if left.rep.toInt < right.rep.toInt then -1
  else if left.rep.toInt > right.rep.toInt then 1
  else 0

/-- `mcd_duration_clamp`.  The assertion stops the program. -/
def durationClamp (dur min max : Duration) : Option Duration :=
  if ¬durationCompare min max ≤ 0 then none
  else if durationCompare dur min < 0 then pure min
  else if durationCompare dur max > 0 then pure max
  else pure dur

/-! ## Points in time -/

/-- `mcd_later` -/
def later (start : TimePoint) (delta : Duration) : Option TimePoint := do
  if ← addWouldOverflow start.rep delta.rep then
    pure (if delta.rep.toInt < 0 then .min else .max)
  else pure ⟨Int64.ofInt (← add start.rep.toInt delta.rep.toInt)⟩

/-- `mcd_time_difference` -/
def timeDifference (target start : TimePoint) : Option Duration := do
  if ← subWouldOverflow target.rep start.rep then
    pure (if start.rep.toInt < 0 then .max else .min)
  else pure (microseconds (Int64.ofInt (← sub target.rep.toInt start.rep.toInt)))

/-- `mcd_time_compare` -/
def timeCompare (left right : TimePoint) : Option ℤ := do
  let diff := (← timeDifference left right).rep.toInt
  if diff < 0 then pure (-1)
  else if diff > 0 then pure 1
  else pure 0

/-! ## Timers -/

/-- `mcd_timer` -/
structure Timer where
  /-- The point in time after which the timer is expired. -/
  expireAt : TimePoint
  deriving DecidableEq, Repr

/-- `mcd_timer_expire_at` -/
def timerExpireAt (time : TimePoint) : Timer := ⟨time⟩

/-- `mcd_timer_expire_after`, at `now`. -/
def timerExpireAfter (now : TimePoint) (after : Duration) : Option Timer := do
  pure (timerExpireAt (← later now after))

/-- `mcd_timer_remaining`, at `now`. -/
def timerRemaining (timer : Timer) (now : TimePoint) : Option Duration := do
  let remain ← timeDifference timer.expireAt now
  if durationCompare remain (microseconds 0) < 0 then pure (microseconds 0)
  else pure remain

/-! ## Saturated results -/

theorem toInt_saturate (x : ℤ) : (Int64.ofInt (saturate x)).toInt = saturate x :=
  toInt_ofInt_i64 (holds_saturate x)

/-- Where the product does not fit, the bound is the one on the side of it. -/
theorem scaled_eq {factor : Int64} {c : ℤ} (hfactor : 0 < factor.toInt) (hc : 0 < c)
    {next : Int64 → Option Duration}
    (hnext : ∀ s, next s = some ⟨Int64.ofInt (saturate (s.toInt * c))⟩) (s : Int64) :
    scaled factor next s = some ⟨Int64.ofInt (saturate (s.toInt * (factor.toInt * c)))⟩ := by
  rw [scaled, mulWouldOverflow_eq, ← mul_assoc, ← saturate_saturate_mul hc (s.toInt * factor.toInt)]
  by_cases h : i64.Holds (s.toInt * factor.toInt)
  · rw [saturate_of_holds h]
    simp only [h, decide_true, Bool.not_true, Option.bind_eq_bind, Option.bind_some, mul_some h,
      hnext, toInt_ofInt_i64 h]
    rfl
  · have hsign : s.toInt * factor.toInt < 0 ↔ s.toInt < 0 := by
      rw [mul_neg_iff]
      omega
    have hmin : saturate (int64Min * c) = int64Min := saturate_of_ge (by rw [int64Min]; omega)
    have hmax : saturate (int64Max * c) = int64Max := saturate_of_le (by rw [int64Max]; omega)
    rw [saturate_of_not_holds h, if_congr hsign rfl rfl]
    simp only [h, decide_false, Bool.not_false, Option.bind_eq_bind, Option.bind_some, if_true,
      Option.pure_def]
    split_ifs
    · rw [hmin]
      rfl
    · rw [hmax]
      rfl

theorem milliseconds_eq (s : Int64) :
    milliseconds s = some ⟨Int64.ofInt (saturate (s.toInt * 1000))⟩ := by
  have hnext : ∀ s : Int64, (pure (microseconds s) : Option Duration) =
      some ⟨Int64.ofInt (saturate (s.toInt * 1))⟩ := by
    intro s
    rw [mul_one, saturate_of_holds (holds_toInt s), Int64.ofInt_toInt]
    rfl
  exact scaled_eq (by decide) (by decide) hnext s

theorem seconds_eq (s : Int64) :
    seconds s = some ⟨Int64.ofInt (saturate (s.toInt * 1000000))⟩ :=
  scaled_eq (by decide) (by decide) milliseconds_eq s

/-- **Durations are saturated**: they are defined for all arguments, and they are the exact number
of microseconds or the bound next to it, although there are up to three products on the way. -/
theorem durations_eq (s : Int64) :
    milliseconds s = some ⟨Int64.ofInt (saturate (s.toInt * 1000))⟩ ∧
    seconds s = some ⟨Int64.ofInt (saturate (s.toInt * 1000000))⟩ ∧
    minutes s = some ⟨Int64.ofInt (saturate (s.toInt * 60000000))⟩ :=
  ⟨milliseconds_eq s, seconds_eq s, scaled_eq (by decide) (by decide) seconds_eq s⟩

theorem getMilliseconds_eq (d : Duration) :
    getMilliseconds d = some (Int64.ofInt (d.rep.toInt.tdiv 1000)) := by
  rw [getMilliseconds, div_some (holds_toInt _) (by decide) (by simp)]
  rfl

/-- **Milliseconds are read back** if their number of microseconds fits. -/
theorem getMilliseconds_milliseconds_iff (s : Int64) :
    milliseconds s >>= getMilliseconds = some s ↔ i64.Holds (s.toInt * 1000) := by
  have hquot : i64.Holds ((saturate (s.toInt * 1000)).tdiv 1000) :=
    holds_tdiv (holds_saturate _) (by decide) (by simp)
  rw [milliseconds_eq, Option.bind_eq_bind, Option.bind_some, getMilliseconds_eq,
    Option.some.injEq, ← Int64.toInt_inj, toInt_saturate, toInt_ofInt_i64 hquot]
  by_cases h : i64.Holds (s.toInt * 1000)
  · rw [saturate_of_holds h, Int.mul_tdiv_cancel _ (by decide)]
    simp [h]
  · have hmin : int64Min.tdiv 1000 = -9223372036854775 := by decide
    have hmax : int64Max.tdiv 1000 = 9223372036854775 := by decide
    simp only [h, iff_false]
    rw [saturate_of_not_holds h]
    rw [not_holds_iff, int64Min, int64Max] at h
    split_ifs
    · rw [hmin]
      omega
    · rw [hmax]
      omega

theorem later_eq (start : TimePoint) (delta : Duration) : later start delta =
    some ⟨Int64.ofInt (saturate (start.rep.toInt + delta.rep.toInt))⟩ := by
  have hl := holds_toInt start.rep
  have hr := holds_toInt delta.rep
  rw [holds_i64] at hl hr
  rw [later, addWouldOverflow_eq]
  by_cases h : i64.Holds (start.rep.toInt + delta.rep.toInt)
  · rw [saturate_of_holds h]
    simp only [h, decide_true, Bool.not_true, Option.bind_eq_bind, Option.bind_some, add_some h]
    rfl
  · have hsign : start.rep.toInt + delta.rep.toInt < 0 ↔ delta.rep.toInt < 0 := by
      rw [holds_i64] at h
      omega
    rw [saturate_of_not_holds h, if_congr hsign rfl rfl]
    simp only [h, decide_false, Bool.not_false, Option.bind_eq_bind, Option.bind_some, if_true,
      Option.pure_def]
    split_ifs <;> rfl

/-- The difference is saturated, but for the one the check misses. -/
theorem timeDifference_eq (target start : TimePoint) : timeDifference target start =
    if target.rep.toInt - start.rep.toInt = 2 ^ 63 then none
    else some ⟨Int64.ofInt (saturate (target.rep.toInt - start.rep.toInt))⟩ := by
  have hl := holds_toInt target.rep
  have hr := holds_toInt start.rep
  rw [holds_i64] at hl hr
  rw [timeDifference, subWouldOverflow_eq]
  by_cases h : i64.Holds (target.rep.toInt - start.rep.toInt)
  · have hne : target.rep.toInt - start.rep.toInt ≠ 2 ^ 63 := by
      rw [holds_i64] at h
      omega
    rw [saturate_of_holds h, if_neg hne]
    simp only [h, true_or, decide_true, Bool.not_true, Option.bind_eq_bind, Option.bind_some,
      sub_some h]
    rfl
  by_cases hmiss : target.rep.toInt - start.rep.toInt = 2 ^ 63
  · rw [if_pos hmiss]
    simp only [hmiss, or_true, decide_true, Bool.not_true, Option.bind_eq_bind, Option.bind_some,
      C.sub]
    rfl
  · have hsign : target.rep.toInt - start.rep.toInt < 0 ↔ ¬start.rep.toInt < 0 := by
      rw [holds_i64] at h
      omega
    rw [if_neg hmiss, saturate_of_not_holds h, if_congr hsign rfl rfl]
    simp only [h, hmiss, or_self, decide_false, Bool.not_false, Option.bind_eq_bind,
      Option.bind_some, if_true, Option.pure_def, ite_not]
    split_ifs <;> rfl

/-! ## Durations, two at a time -/

theorem durationCompare_neg_iff {left right : Duration} :
    durationCompare left right < 0 ↔ left.rep.toInt < right.rep.toInt := by
  rw [durationCompare]
  split_ifs <;> omega

theorem durationCompare_pos_iff {left right : Duration} :
    0 < durationCompare left right ↔ right.rep.toInt < left.rep.toInt := by
  rw [durationCompare]
  split_ifs <;> omega

/-- Between bounds in the right order, a duration is moved to the nearest one between them. -/
theorem durationClamp_eq (dur lo hi : Duration) : durationClamp dur lo hi =
    if hi.rep.toInt < lo.rep.toInt then none
    else some ⟨Int64.ofInt (max lo.rep.toInt (min hi.rep.toInt dur.rep.toInt))⟩ := by
  rw [durationClamp]
  simp only [not_le, gt_iff_lt, durationCompare_neg_iff, durationCompare_pos_iff]
  split_ifs with h hlo hhi
  · rfl
  · rw [max_eq_left (by omega), Int64.ofInt_toInt]
    rfl
  · rw [min_eq_left hhi.le, max_eq_right (by omega), Int64.ofInt_toInt]
    rfl
  · rw [min_eq_right (by omega), max_eq_right (by omega), Int64.ofInt_toInt]
    rfl

/-! ## Points in time, two at a time -/

theorem saturate_neg_iff {x : ℤ} : saturate x < 0 ↔ x < 0 := by
  rw [saturate, int64Min, int64Max]
  omega

theorem saturate_pos_iff {x : ℤ} : 0 < saturate x ↔ 0 < x := by
  rw [saturate, int64Min, int64Max]
  omega

/-- **Points in time are compared as they follow each other**, unless they are `2 ^ 63` apart: then
nothing is defined. -/
theorem timeCompare_eq (left right : TimePoint) : timeCompare left right =
    if left.rep.toInt - right.rep.toInt = 2 ^ 63 then none
    else some (left.rep.toInt - right.rep.toInt).sign := by
  rw [timeCompare, timeDifference_eq]
  generalize left.rep.toInt - right.rep.toInt = diff
  by_cases hmiss : diff = 2 ^ 63
  · rw [if_pos hmiss, if_pos hmiss]
    rfl
  rw [if_neg hmiss, if_neg hmiss, Option.bind_eq_bind, Option.bind_some, toInt_saturate]
  rcases lt_trichotomy diff 0 with h | h | h
  · rw [if_pos (saturate_neg_iff.mpr h), Int.sign_eq_neg_one_of_neg h]
    rfl
  · rw [h]
    rfl
  · have hpos := saturate_pos_iff.mpr h
    rw [if_neg hpos.not_gt, if_pos hpos, Int.sign_eq_one_of_pos h]
    rfl

/-- **The way to a point in time leads there** if its length fits. -/
theorem later_timeDifference_iff (target start : TimePoint) :
    timeDifference target start >>= later start = some target ↔
      i64.Holds (target.rep.toInt - start.rep.toInt) := by
  have hl := holds_toInt target.rep
  have hr := holds_toInt start.rep
  rw [timeDifference_eq]
  split_ifs with hmiss
  · rw [holds_i64]
    simp
    omega
  · rw [Option.bind_eq_bind, Option.bind_some, later_eq, toInt_saturate, Option.some.injEq,
      TimePoint.ext_iff, ← Int64.toInt_inj, toInt_saturate]
    rw [holds_i64] at hl hr ⊢
    rw [saturate, saturate, int64Min, int64Max]
    omega

/-! ## The run of a timer -/

/-- A duration is negative if it comes before the duration of zero. -/
theorem durationCompare_zero_neg_iff {d : Duration} :
    durationCompare d (microseconds 0) < 0 ↔ d.rep.toInt < 0 :=
  durationCompare_neg_iff

/-- What is left at a reading of a clock that started at zero. -/
theorem timerRemaining_eq (timer : Timer) {now : TimePoint} (h : 0 ≤ now.rep.toInt) :
    timerRemaining timer now =
      some ⟨Int64.ofInt (max 0 (timer.expireAt.rep.toInt - now.rep.toInt))⟩ := by
  have hl := holds_toInt timer.expireAt.rep
  rw [holds_i64] at hl
  have hmiss : timer.expireAt.rep.toInt - now.rep.toInt ≠ 2 ^ 63 := by omega
  have hmax : timer.expireAt.rep.toInt - now.rep.toInt ≤ int64Max := by
    rw [int64Max]
    omega
  rw [timerRemaining, timeDifference_eq, if_neg hmiss, Option.bind_eq_bind, Option.bind_some,
    if_congr durationCompare_zero_neg_iff rfl rfl, toInt_saturate,
    if_congr saturate_neg_iff rfl rfl]
  split_ifs with hneg
  · rw [max_eq_left hneg.le]
    rfl
  · rw [max_eq_right (not_lt.mp hneg), saturate, min_eq_right hmax, max_eq_right]
    · rfl
    · rw [int64Min]
      omega

/-- A timer that is set by such a clock. -/
theorem timerExpireAfter_eq {now : TimePoint} (h : 0 ≤ now.rep.toInt) (after : Duration) :
    timerExpireAfter now after =
      some ⟨⟨Int64.ofInt (min int64Max (now.rep.toInt + after.rep.toInt))⟩⟩ := by
  have hr := holds_toInt after.rep
  rw [holds_i64] at hr
  have hmin : int64Min ≤ min int64Max (now.rep.toInt + after.rep.toInt) := by
    rw [int64Min, int64Max]
    omega
  rw [timerExpireAfter, later_eq, Option.bind_eq_bind, Option.bind_some, saturate,
    max_eq_right hmin]
  rfl

/-- The readings of the clock, each with what is left at it. -/
def watch (timer : Timer) : List TimePoint → Option (List (TimePoint × Duration))
  | [] => pure []
  | now :: readings => do
    let remain ← timerRemaining timer now
    let log ← watch timer readings
    pure ((now, remain) :: log)

theorem watch_eq (timer : Timer) {readings : List TimePoint}
    (h : ∀ now ∈ readings, 0 ≤ now.rep.toInt) : watch timer readings = some (readings.map fun now ↦
      (now, ⟨Int64.ofInt (max 0 (timer.expireAt.rep.toInt - now.rep.toInt))⟩)) := by
  induction readings with
  | nil => rfl
  | cons now readings ih =>
    rw [watch, timerRemaining_eq timer (h now List.mem_cons_self), Option.bind_eq_bind,
      Option.bind_some, ih fun t ht ↦ h t (List.mem_cons_of_mem now ht)]
    rfl

/-- The log of a timer that counts down: what is left at a reading is what was left at an earlier
one less the time in between, and never less than nothing. -/
def CountsDown (log : List (TimePoint × Duration)) : Prop :=
  log.Pairwise fun x y ↦
    y.2.rep.toInt = max 0 (x.2.rep.toInt - (y.1.rep.toInt - x.1.rep.toInt))

/-- Any timer counts down from the first reading on. -/
theorem exists_log (timer : Timer) {readings : List TimePoint}
    (h : ∀ now ∈ readings, 0 ≤ now.rep.toInt)
    (hclock : readings.Pairwise fun t t' ↦ t.rep.toInt ≤ t'.rep.toInt) :
    ∃ log, watch timer readings = some log ∧ log.map Prod.fst = readings ∧ CountsDown log ∧
      ∀ x ∈ log, x.2.rep.toInt = max 0 (timer.expireAt.rep.toInt - x.1.rep.toInt) := by
  have hremain : ∀ t ∈ readings,
      i64.Holds (max 0 (timer.expireAt.rep.toInt - t.rep.toInt)) := by
    intro t ht
    have h0 := h t ht
    have hexpire := holds_toInt timer.expireAt.rep
    rw [holds_i64] at hexpire ⊢
    omega
  refine ⟨_, watch_eq timer h, ?_, ?_, ?_⟩
  · rw [List.map_map]
    exact List.map_id _
  · rw [CountsDown, List.pairwise_map]
    refine hclock.imp_of_mem fun {t t'} ht ht' hle ↦ ?_
    dsimp only
    rw [toInt_ofInt_i64 (hremain t ht), toInt_ofInt_i64 (hremain t' ht')]
    omega
  · intro x hx
    obtain ⟨t, ht, rfl⟩ := List.mem_map.mp hx
    exact toInt_ofInt_i64 (hremain t ht)

/-- **A timer counts down with its clock**, and at first it has what it was set to, as far as the
clock goes. -/
theorem watch_countsDown {now : TimePoint} {after : Duration} {readings : List TimePoint}
    (h : 0 ≤ now.rep.toInt)
    (hclock : (now :: readings).Pairwise fun t t' ↦ t.rep.toInt ≤ t'.rep.toInt) :
    ∃ timer log, timerExpireAfter now after = some timer ∧
      watch timer (now :: readings) = some log ∧ log.map Prod.fst = now :: readings ∧
      CountsDown log ∧ ∀ first ∈ log.head?,
        first.2.rep.toInt = max 0 (min after.rep.toInt (int64Max - now.rep.toInt)) := by
  have hexpire : i64.Holds (min int64Max (now.rep.toInt + after.rep.toInt)) := by
    have hafter := holds_toInt after.rep
    rw [holds_i64] at hafter ⊢
    rw [int64Max]
    omega
  have hnonneg : ∀ t ∈ now :: readings, 0 ≤ t.rep.toInt := by
    intro t ht
    rcases List.mem_cons.mp ht with rfl | ht
    · exact h
    · exact h.trans ((List.pairwise_cons.mp hclock).1 t ht)
  obtain ⟨log, hwatch, hreadings, hdown, hleft⟩ := exists_log _ hnonneg hclock
  refine ⟨_, log, timerExpireAfter_eq h after, hwatch, hreadings, hdown, ?_⟩
  intro first hfirst
  obtain ⟨tail, rfl⟩ := List.head?_eq_some_iff.mp hfirst
  obtain rfl : first.1 = now := (List.cons.inj hreadings).1
  rw [hleft first List.mem_cons_self, toInt_ofInt_i64 hexpire]
  omega

/-- Two milliseconds, read after one and after three. -/
theorem watch_two_milliseconds : ∃ timer log,
    timerExpireAfter ⟨5000000⟩ ⟨2000⟩ = some timer ∧
      watch timer [⟨5000000⟩, ⟨5001000⟩, ⟨5003000⟩] = some log ∧
      log.map Prod.fst = [⟨5000000⟩, ⟨5001000⟩, ⟨5003000⟩] ∧ CountsDown log ∧
        ∀ first ∈ log.head?, first.2.rep.toInt =
          max 0 (min (2000 : Int64).toInt (int64Max - (5000000 : Int64).toInt)) :=
  watch_countsDown (by decide) (by decide)

end Mcd
