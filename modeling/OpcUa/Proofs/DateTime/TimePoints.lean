import OpcUa.DateTime
import OpcUa.Proofs.DateTime.Reckoning

/-!
Times and counts of nanoseconds since 1970. From nanoseconds to ticks no word is left. From ticks to
nanoseconds the difference of the two epochs is taken first, and times less than this difference
above the least word wrap around: they become the greatest count in place of the least. From there
on the conversion never falls, saturates at both ends, and comes back wherever it does not saturate.
-/

namespace OpcUa.DateTime

open Reckoning

/-- The least tick count that still lies in the word when counted from 1970. -/
def earliestTicks : Int64 := Int64.minValue + unixEpochTicks

/-- Ticks from 1970 to a time. -/
def sinceUnixEpoch (time : DateTime) : Int := time.ticks.toInt - 116444736000000000

/-- Whether the nanoseconds from 1970 to a time can be counted in a word. -/
def CountedInNanoseconds (time : DateTime) : Prop := InWord (time.sinceUnixEpoch * 100)

instance (time : DateTime) : Decidable time.CountedInNanoseconds := by
  unfold CountedInNanoseconds; infer_instance

def sinceUnixEpochSteps (time : DateTime) : Reckoning :=
  difference (number time.ticks) (number unixEpochTicks)

/-- The computations made on the way to nanoseconds: the product is only taken within the bounds. -/
def nanosecondSteps (time : DateTime) : List Reckoning :=
  if Int64.maxValue / 100 ≤ time.sinceUnixEpochSteps.word ∨
    time.sinceUnixEpochSteps.word ≤ Int64.minValue / 100 then [time.sinceUnixEpochSteps]
  else [time.sinceUnixEpochSteps, product time.sinceUnixEpochSteps (number 100)]

/-- The computation made on the way from nanoseconds. -/
def tickSteps (nanoseconds : Int64) : Reckoning :=
  sum (quotient (number nanoseconds) (number 100)) (number unixEpochTicks)

theorem earliest_ticks_le (time : DateTime) :
    earliestTicks ≤ time.ticks ↔ -9106927300854775808 ≤ time.ticks.toInt :=
  Int64.le_iff_toInt_le

theorem since_unix_epoch_fits (time : DateTime) :
    time.sinceUnixEpochSteps.Fits ↔ earliestTicks ≤ time.ticks := by
  have unixEpoch : unixEpochTicks.toInt = 116444736000000000 := rfl
  have high := Int64.toInt_le time.ticks
  have largest : Int64.maxValue.toInt = 9223372036854775807 := rfl
  simp only [sinceUnixEpochSteps, Fits, exact, in_word_iff, unixEpoch, true_and, earliest_ticks_le]
  omega

/-- The bounds of the comparisons, which drop the remainder toward zero. -/
theorem word_bounds (word : Int64) :
    (Int64.maxValue / 100 ≤ word ↔ 92233720368547758 ≤ word.toInt) ∧
      (word ≤ Int64.minValue / 100 ↔ word.toInt ≤ -92233720368547758) :=
  ⟨Int64.le_iff_toInt_le, Int64.le_iff_toInt_le⟩

theorem to_unix_nanoseconds_eq (time : DateTime) : time.toUnixNanoseconds =
    if Int64.maxValue / 100 ≤ time.sinceUnixEpochSteps.word then Int64.maxValue
    else if time.sinceUnixEpochSteps.word ≤ Int64.minValue / 100 then Int64.minValue
    else (product time.sinceUnixEpochSteps (number 100)).word := rfl

theorem of_unix_nanoseconds_eq (nanoseconds : Int64) :
    ofUnixNanoseconds nanoseconds = ofTicksClamped (tickSteps nanoseconds).word := rfl

theorem since_unix_epoch_word {time : DateTime} (early : earliestTicks ≤ time.ticks) :
    time.sinceUnixEpochSteps.word.toInt = time.sinceUnixEpoch :=
  to_int_word ((since_unix_epoch_fits time).mpr early)

/-- Within the bounds of the comparisons there is room for the product. -/
theorem product_fits {time : DateTime} (early : earliestTicks ≤ time.ticks)
    (low : -92233720368547758 < time.sinceUnixEpoch)
    (high : time.sinceUnixEpoch < 92233720368547758) :
    (product time.sinceUnixEpochSteps (number 100)).Fits := by
  have since : time.sinceUnixEpochSteps.exact = time.sinceUnixEpoch := rfl
  have hundred : (100 : Int64).toInt = 100 := rfl
  simp only [Fits, exact, since, hundred, in_word_iff]
  exact ⟨(since_unix_epoch_fits time).mpr early, trivial, by omega⟩

/-- Before the earliest ticks the difference wraps around to a large one. -/
theorem since_unix_epoch_wraps {time : DateTime} (late : ¬earliestTicks ≤ time.ticks) :
    92233720368547758 ≤ time.sinceUnixEpochSteps.word.toInt := by
  have unixEpoch : unixEpochTicks.toInt = 116444736000000000 := rfl
  have low := Int64.le_toInt time.ticks
  rw [earliest_ticks_le] at late
  have wrapped : time.sinceUnixEpochSteps.word.toInt =
      time.ticks.toInt - 116444736000000000 + 18446744073709551616 := by
    simp only [sinceUnixEpochSteps, word, Int64.toInt_sub, unixEpoch, Int.bmod_def]
    omega
  omega

/-- Nanoseconds of a time from the earliest ticks on. -/
theorem to_unix_nanoseconds_cases {time : DateTime} (early : earliestTicks ≤ time.ticks) :
    92233720368547758 ≤ time.sinceUnixEpoch ∧ time.toUnixNanoseconds = Int64.maxValue ∨
    time.sinceUnixEpoch ≤ -92233720368547758 ∧ time.toUnixNanoseconds = Int64.minValue ∨
    (-92233720368547758 < time.sinceUnixEpoch ∧ time.sinceUnixEpoch < 92233720368547758) ∧
      time.toUnixNanoseconds.toInt = time.sinceUnixEpoch * 100 := by
  obtain ⟨above, below⟩ := word_bounds time.sinceUnixEpochSteps.word
  rw [since_unix_epoch_word early] at above below
  rw [to_unix_nanoseconds_eq]
  simp only [above, below]
  by_cases high : 92233720368547758 ≤ time.sinceUnixEpoch
  · exact Or.inl ⟨high, if_pos high⟩
  by_cases low : time.sinceUnixEpoch ≤ -92233720368547758
  · exact Or.inr (Or.inl ⟨low, (if_neg high).trans (if_pos low)⟩)
  · have inside := And.intro (Int.lt_of_not_ge low) (Int.lt_of_not_ge high)
    refine Or.inr (Or.inr ⟨inside, ?_⟩)
    rw [if_neg high, if_neg low]
    exact to_int_word (product_fits early inside.1 inside.2)

/-- Before the earliest ticks the count is the greatest one. -/
theorem to_unix_nanoseconds_wraps {time : DateTime} (late : ¬earliestTicks ≤ time.ticks) :
    time.toUnixNanoseconds = Int64.maxValue :=
  if_pos ((word_bounds _).1.mpr (since_unix_epoch_wraps late))

theorem nanosecond_steps_fit (time : DateTime) :
    (∀ steps ∈ time.nanosecondSteps, steps.Fits) ↔ earliestTicks ≤ time.ticks := by
  constructor
  · intro all
    apply (since_unix_epoch_fits time).mp
    apply all
    unfold nanosecondSteps
    split
    · exact List.mem_singleton_self _
    · exact List.mem_cons_self
  · intro early steps member
    have fits := (since_unix_epoch_fits time).mpr early
    obtain ⟨above, below⟩ := word_bounds time.sinceUnixEpochSteps.word
    rw [since_unix_epoch_word early] at above below
    unfold nanosecondSteps at member
    simp only [above, below] at member
    split at member
    · rw [List.mem_singleton.mp member]
      exact fits
    · rename_i inside
      rw [List.mem_cons, List.mem_singleton] at member
      rcases member with rfl | rfl
      · exact fits
      · exact product_fits early (by omega) (by omega)

theorem to_unix_nanoseconds_mono {earlier later : DateTime}
    (early : earliestTicks ≤ earlier.ticks) (ordered : earlier.ticks ≤ later.ticks) :
    earlier.toUnixNanoseconds ≤ later.toUnixNanoseconds := by
  have late : earliestTicks ≤ later.ticks := Int64.le_trans early ordered
  have since : earlier.sinceUnixEpoch ≤ later.sinceUnixEpoch := by
    rw [Int64.le_iff_toInt_le] at ordered
    unfold sinceUnixEpoch
    omega
  rcases to_unix_nanoseconds_cases late with ⟨_, greatest⟩ | ⟨low, _⟩ | ⟨⟨low, _⟩, inside⟩
  · rw [greatest]
    exact Int64.le_maxValue _
  · rcases to_unix_nanoseconds_cases early with ⟨high, _⟩ | ⟨_, least⟩ | ⟨⟨high, _⟩, _⟩
    · omega
    · rw [least]
      exact Int64.minValue_le _
    · omega
  · rcases to_unix_nanoseconds_cases early with ⟨high, _⟩ | ⟨_, least⟩ | ⟨_, inside'⟩
    · omega
    · rw [least]
      exact Int64.minValue_le _
    · rw [Int64.le_iff_toInt_le, inside, inside']
      omega

theorem tick_steps (nanoseconds : Int64) : (tickSteps nanoseconds).Fits ∧
    (tickSteps nanoseconds).exact = nanoseconds.toInt.tdiv 100 + 116444736000000000 := by
  have hundred : (100 : Int64).toInt = 100 := rfl
  have unixEpoch : unixEpochTicks.toInt = 116444736000000000 := rfl
  obtain ⟨low, high⟩ := in_word_iff.mp (in_word_to_int nanoseconds)
  have toward : nanoseconds.toInt.tdiv 100 = _ := Int.tdiv_eq_ediv
  have unit : Int.sign 100 = 1 := rfl
  rw [unit] at toward
  simp only [tickSteps, Fits, exact, hundred, unixEpoch, in_word_iff, true_and, and_true]
  split at toward <;> omega

theorem of_ticks_clamped_ticks (ticks : Int64) : (ofTicksClamped ticks).ticks.toInt =
    if ticks.toInt ≤ 0 then 0 else if 2650467743990000000 ≤ ticks.toInt then 2650467743999999999
    else ticks.toInt := by
  have early : ticks ≤ 0 ↔ ticks.toInt ≤ 0 := Int64.le_iff_toInt_le
  have late : lastWholeSecond ≤ ticks ↔ 2650467743990000000 ≤ ticks.toInt := Int64.le_iff_toInt_le
  unfold ofTicksClamped
  simp only [early, late]
  split
  · rfl
  split
  · rfl
  · rfl

theorem of_ticks_clamped_mono {lower upper : Int64} (ordered : lower ≤ upper) :
    (ofTicksClamped lower).ticks ≤ (ofTicksClamped upper).ticks := by
  rw [Int64.le_iff_toInt_le] at ordered ⊢
  rw [of_ticks_clamped_ticks, of_ticks_clamped_ticks]
  split <;> split <;> omega

theorem tick_steps_word (nanoseconds : Int64) : (tickSteps nanoseconds).word.toInt =
    nanoseconds.toInt.tdiv 100 + 116444736000000000 :=
  (to_int_word (tick_steps nanoseconds).1).trans (tick_steps nanoseconds).2

theorem of_unix_nanoseconds_mono {earlier later : Int64} (ordered : earlier ≤ later) :
    (ofUnixNanoseconds earlier).ticks ≤ (ofUnixNanoseconds later).ticks := by
  rw [of_unix_nanoseconds_eq, of_unix_nanoseconds_eq]
  apply of_ticks_clamped_mono
  rw [Int64.le_iff_toInt_le] at ordered ⊢
  rw [tick_steps_word, tick_steps_word]
  exact Int.add_le_add_right (Int.tdiv_le_tdiv (by decide) ordered) _

/-- Also at the two ends, where the greatest and the least count stand for the product. -/
theorem of_to_unix_nanoseconds {time : DateTime} (counted : time.CountedInNanoseconds) :
    ofUnixNanoseconds time.toUnixNanoseconds = time := by
  obtain ⟨low, high⟩ := in_word_iff.mp counted
  have ticks : time.sinceUnixEpoch + 116444736000000000 = time.ticks.toInt :=
    Int.sub_add_cancel _ _
  have early : earliestTicks ≤ time.ticks := (earliest_ticks_le time).mpr (by omega)
  have again : (tickSteps time.toUnixNanoseconds).word = time.ticks := by
    apply Int64.toInt_inj.mp
    rw [tick_steps_word, ← ticks]
    rcases to_unix_nanoseconds_cases early with ⟨above, same⟩ | ⟨below, same⟩ | ⟨_, same⟩
    · have last : Int.tdiv Int64.maxValue.toInt 100 = 92233720368547758 := rfl
      rw [same, last]
      omega
    · have first : Int.tdiv Int64.minValue.toInt 100 = -92233720368547758 := rfl
      rw [same, first]
      omega
    · rw [same, Int.mul_tdiv_cancel _ (by decide)]
  have positive : ¬time.ticks.toInt ≤ 0 := by omega
  have whole : ¬2650467743990000000 ≤ time.ticks.toInt := by omega
  have kept : (ofTicksClamped time.ticks).ticks = time.ticks := by
    apply Int64.toInt_inj.mp
    rw [of_ticks_clamped_ticks, if_neg positive, if_neg whole]
  rw [of_unix_nanoseconds_eq, again]
  exact congrArg DateTime.mk kept

/-- A count that cannot be kept saturates at its end of the word, from the earliest ticks on. -/
theorem to_unix_nanoseconds_saturates {time : DateTime} (uncounted : ¬time.CountedInNanoseconds) :
    time.toUnixNanoseconds = (if 0 < time.sinceUnixEpoch then Int64.maxValue else Int64.minValue) ↔
      earliestTicks ≤ time.ticks := by
  unfold CountedInNanoseconds at uncounted
  rw [in_word_iff] at uncounted
  constructor
  · intro saturated
    apply Decidable.byContradiction
    intro late
    rw [to_unix_nanoseconds_wraps late] at saturated
    rw [earliest_ticks_le] at late
    have before : ¬0 < time.sinceUnixEpoch := by
      unfold sinceUnixEpoch
      omega
    rw [if_neg before] at saturated
    exact absurd saturated (by decide)
  · intro early
    rcases to_unix_nanoseconds_cases early with ⟨above, same⟩ | ⟨below, same⟩ | ⟨inside, _⟩
    · rw [same, if_pos (by omega)]
    · rw [same, if_neg (by omega)]
    · omega

/-- From the earliest ticks on, and from nowhere else, counting in nanoseconds stays in the word,
saturates at the end beyond which a time lies, never falls behind the time, and can be undone where
it does not saturate. The way from nanoseconds always stays in the word and never falls. -/
theorem time_points_ordered_from_earliest (time : DateTime) (nanoseconds : Int64) :
    ((∀ steps ∈ time.nanosecondSteps, steps.Fits) ∧
      (¬time.CountedInNanoseconds → time.toUnixNanoseconds =
        if 0 < time.sinceUnixEpoch then Int64.maxValue else Int64.minValue) ∧
      (∀ later : DateTime, time.ticks ≤ later.ticks →
        time.toUnixNanoseconds ≤ later.toUnixNanoseconds) ∧
      (time.CountedInNanoseconds → ofUnixNanoseconds time.toUnixNanoseconds = time) ↔
        earliestTicks ≤ time.ticks) ∧
    (tickSteps nanoseconds).Fits ∧
    ∀ later : Int64, nanoseconds ≤ later →
      (ofUnixNanoseconds nanoseconds).ticks ≤ (ofUnixNanoseconds later).ticks := by
  refine ⟨⟨?_, ?_⟩, (tick_steps nanoseconds).1, fun later => of_unix_nanoseconds_mono⟩
  · rintro ⟨fit, _⟩
    exact (nanosecond_steps_fit time).mp fit
  · intro early
    exact ⟨(nanosecond_steps_fit time).mpr early,
      fun uncounted => (to_unix_nanoseconds_saturates uncounted).mpr early,
      fun later => to_unix_nanoseconds_mono early, of_to_unix_nanoseconds⟩

theorem time_points_ordered_from_unix_epoch :
    (DateTime.mk unixEpochTicks).toUnixNanoseconds ≤ greatest.toUnixNanoseconds ∧
      ofUnixNanoseconds (DateTime.mk unixEpochTicks).toUnixNanoseconds = ⟨unixEpochTicks⟩ := by
  obtain ⟨_, _, ordered, again⟩ :=
    (time_points_ordered_from_earliest ⟨unixEpochTicks⟩ 0).1.mpr (by decide)
  exact ⟨ordered greatest (by decide), again (by decide)⟩

/-- The least word, which lies before 1970, becomes the greatest count of nanoseconds. -/
theorem least_word_becomes_greatest_count :
    ¬(DateTime.mk Int64.minValue).CountedInNanoseconds ∧
      (DateTime.mk Int64.minValue).sinceUnixEpoch < 0 ∧
      (DateTime.mk Int64.minValue).toUnixNanoseconds = Int64.maxValue ∧
      ¬(DateTime.mk Int64.minValue).sinceUnixEpochSteps.Fits := by
  decide

end OpcUa.DateTime
