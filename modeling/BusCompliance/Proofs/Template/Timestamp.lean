import BusCompliance.Proofs.Number.Digits
import BusCompliance.Proofs.Outcome
import BusCompliance.Proofs.Text.Dotted
import BusCompliance.Template.Pattern

/-!
# The grammar of timestamps

A timestamp is a date with a clock time, or a sign with an offset behind it. The pattern accepts
these, and besides a date behind a sign, which is no timestamp.
-/

namespace BusCompliance

/-! ## Numerals -/

/-- ASCII digits, in a number between the bounds, that spell a number. -/
structure IsNumeral (least greatest : Nat) (cs : List Char) (n : Nat) : Prop where
  ascii : ∀ c ∈ cs, c.isDigit = true
  least_le : least ≤ cs.length
  le_greatest : cs.length ≤ greatest
  spells : n = Nat.ofDigits 10 (cs.reverse.map fun c => c.toNat - '0'.toNat)

namespace IsNumeral

variable {least greatest n : Nat} {cs : List Char}

/-- A separator is no digit. -/
theorem not_mem (h : IsNumeral least greatest cs n) {c : Char} (hc : c.isDigit = false) :
    c ∉ cs := by
  intro hmem
  rw [h.ascii c hmem] at hc
  cases hc

end IsNumeral

namespace Timestamp

variable {least greatest n : Nat} {full : Bool} {cs : List Char}

theorem digits?_eq_some_iff (hleast : 0 < least) :
    digits? least greatest cs = some n ↔ IsNumeral least greatest cs n := by
  unfold digits? Natural.ofDigits?
  constructor
  · intro h
    split at h
    · rename_i hlength
      split at h
      · cases h
      · obtain ⟨hascii, hspells⟩ := Natural.value?_eq_some_iff.mp h
        exact ⟨hascii, hlength.1, hlength.2, hspells⟩
    · cases h
  · intro h
    have hne : cs.isEmpty = false := by
      have := h.least_le
      cases cs with
      | nil => simp at this; omega
      | cons => rfl
    rw [if_pos ⟨h.least_le, h.le_greatest⟩, hne]
    exact Natural.value?_eq_some_iff.mpr ⟨h.ascii, h.spells⟩

/-! ## Clock times -/

/-- `[[HH:]MM:]SS`, of one to three parts. A second 60 is a leap second. -/
inductive IsTimeText : Nat → List Char → Prop
  | second {second : Nat} {cs : List Char} (hsecond : IsNumeral 1 2 cs second) (hle : second ≤ 60) :
      IsTimeText 1 cs
  | minute {minute : Nat} {cs rest : List Char} (hminute : IsNumeral 1 2 cs minute)
      (hle : minute ≤ 59) (hrest : IsTimeText 1 rest) : IsTimeText 2 (cs ++ ':' :: rest)
  | hour {hour : Nat} {cs rest : List Char} (hhour : IsNumeral 1 2 cs hour) (hle : hour ≤ 23)
      (hrest : IsTimeText 2 rest) : IsTimeText 3 (cs ++ ':' :: rest)

/-- A time of some parts, and a point with one to nine digits behind it, if any. -/
inductive IsClockText (parts : Nat) : List Char → Prop
  | whole {cs : List Char} (htime : IsTimeText parts cs) : IsClockText parts cs
  | point {cs fraction : List Char} {n : Nat} (htime : IsTimeText parts cs)
      (hfraction : IsNumeral 1 9 fraction n) : IsClockText parts (cs ++ '.' :: fraction)

/-- A character that is neither a digit nor a colon. -/
theorem IsTimeText.not_mem {parts : Nat} (h : IsTimeText parts cs) {c : Char}
    (hdigit : c.isDigit = false) (hcolon : c ≠ ':') : c ∉ cs := by
  induction h with
  | second hsecond => exact hsecond.not_mem hdigit
  | minute hminute _ _ ih => simp [hminute.not_mem hdigit, hcolon, ih]
  | hour hhour _ _ ih => simp [hhour.not_mem hdigit, hcolon, ih]

theorem IsClockText.hyphen_not_mem {parts : Nat} (h : IsClockText parts cs) : '-' ∉ cs := by
  cases h with
  | whole htime => exact htime.not_mem (by decide) (by decide)
  | point htime hfraction =>
    simp [htime.not_mem (c := '-') (by decide) (by decide), hfraction.not_mem (c := '-') (by decide)]

/-- The numbers between the colons. -/
def numbers? (cs : List Char) : Option (List Nat) := (cs.splitOn ':').mapM (digits? 1 2)

theorem numbers?_singleton_iff : numbers? cs = some [n] ↔ IsNumeral 1 2 cs n := by
  unfold numbers?
  rw [mapM_eq_some_iff, List.forall₂_cons_right_iff]
  simp only [List.forall₂_nil_right_iff, digits?_eq_some_iff Nat.zero_lt_one]
  constructor
  · rintro ⟨piece, _, hpiece, rfl, hpieces⟩
    rwa [(Text.splitOn_eq_singleton_iff.mp hpieces).1]
  · intro h
    exact ⟨cs, [], h, rfl, List.splitOn_eq_singleton (h.not_mem (by decide))⟩

theorem numbers?_cons_iff {ns : List Nat} (hne : ns ≠ []) : numbers? cs = some (n :: ns) ↔
    ∃ first rest, cs = first ++ ':' :: rest ∧ IsNumeral 1 2 first n ∧ numbers? rest = some ns := by
  unfold numbers?
  simp only [mapM_eq_some_iff, List.forall₂_cons_right_iff, digits?_eq_some_iff Nat.zero_lt_one]
  constructor
  · rintro ⟨first, pieces, hfirst, hpieces, hcs⟩
    have hmore : pieces ≠ [] := by
      rintro rfl
      exact hne (List.forall₂_nil_left_iff.mp hpieces)
    obtain ⟨rest, rfl, -, rfl⟩ := (Text.splitOn_eq_cons_iff hmore).mp hcs
    exact ⟨first, rest, rfl, hfirst, hpieces⟩
  · rintro ⟨first, rest, rfl, hfirst, hrest⟩
    exact ⟨first, _, hfirst, hrest, Text.splitOn_append (hfirst.not_mem (by decide))⟩

theorem isTimeText_one_iff : IsTimeText 1 cs ↔ ∃ s, numbers? cs = some [s] ∧ s ≤ 60 := by
  simp only [numbers?_singleton_iff]
  constructor
  · rintro ⟨hsecond, hle⟩
    exact ⟨_, hsecond, hle⟩
  · rintro ⟨s, hsecond, hle⟩
    exact .second hsecond hle

theorem isTimeText_two_iff : IsTimeText 2 cs ↔
    ∃ m s, numbers? cs = some [m, s] ∧ m ≤ 59 ∧ s ≤ 60 := by
  simp only [numbers?_cons_iff (List.cons_ne_nil _ [])]
  constructor
  · rintro (_ | ⟨hminute, hle, hrest⟩)
    obtain ⟨s, hs, hsecond⟩ := isTimeText_one_iff.mp hrest
    exact ⟨_, s, ⟨_, _, rfl, hminute, hs⟩, hle, hsecond⟩
  · rintro ⟨m, s, ⟨first, rest, rfl, hminute, hs⟩, hle, hsecond⟩
    exact .minute hminute hle (isTimeText_one_iff.mpr ⟨s, hs, hsecond⟩)

theorem isTimeText_three_iff : IsTimeText 3 cs ↔
    ∃ h m s, numbers? cs = some [h, m, s] ∧ h ≤ 23 ∧ m ≤ 59 ∧ s ≤ 60 := by
  constructor
  · rintro (_ | _ | ⟨hhour, hle, hrest⟩)
    obtain ⟨m, s, hms, hminute, hsecond⟩ := isTimeText_two_iff.mp hrest
    refine ⟨_, m, s, ?_, hle, hminute, hsecond⟩
    exact (numbers?_cons_iff (List.cons_ne_nil _ _)).mpr ⟨_, _, rfl, hhour, hms⟩
  · rintro ⟨h, m, s, hnumbers, hle, hminute, hsecond⟩
    obtain ⟨first, rest, rfl, hhour, hms⟩ :=
      (numbers?_cons_iff (List.cons_ne_nil _ _)).mp hnumbers
    exact .hour hhour hle (isTimeText_two_iff.mpr ⟨m, s, hms, hminute, hsecond⟩)

/-- The parts of a time: all three if it is full, else one, two or three. -/
theorem isTimeOfDay_numbers_iff : (match numbers? cs with
      | some [hour, minute, second] => isTimeOfDay hour minute second
      | some [minute, second] => !full && isTimeOfDay 0 minute second
      | some [second] => !full && isTimeOfDay 0 0 second
      | _ => false) = true ↔ ∃ parts, (full = true → parts = 3) ∧ IsTimeText parts cs := by
  unfold isTimeOfDay
  constructor
  · intro h
    split at h
    · rename_i hour minute second hnumbers
      simp only [Bool.and_eq_true, decide_eq_true_eq, and_assoc] at h
      exact ⟨3, fun _ => rfl, isTimeText_three_iff.mpr ⟨hour, minute, second, hnumbers, h⟩⟩
    · rename_i minute second hnumbers
      cases full
      · simp at h
        exact ⟨2, by simp, isTimeText_two_iff.mpr ⟨minute, second, hnumbers, h⟩⟩
      · simp at h
    · rename_i second hnumbers
      cases full
      · simp at h
        exact ⟨1, by simp, isTimeText_one_iff.mpr ⟨second, hnumbers, h⟩⟩
      · simp at h
    · cases h
  · rintro ⟨parts, hfull, h⟩
    cases h with
    | second hsecond hle =>
      obtain ⟨s, hs, hsecond⟩ := isTimeText_one_iff.mp (.second hsecond hle)
      simp_all
    | minute hminute hle hrest =>
      obtain ⟨m, s, hms, hbounds⟩ := isTimeText_two_iff.mp (.minute hminute hle hrest)
      simp_all
    | hour hhour hle hrest =>
      obtain ⟨h, m, s, hhms, hbounds⟩ := isTimeText_three_iff.mp (.hour hhour hle hrest)
      simp [hhms, hbounds]

theorem isClock_iff : isClock full cs = true ↔
    ∃ parts, (full = true → parts = 3) ∧ IsClockText parts cs := by
  unfold isClock
  constructor
  · intro h
    split at h
    rename_i clock fraction hsplit
    rw [Bool.and_eq_true] at h
    obtain ⟨hfraction, htime⟩ := h
    obtain ⟨parts, hparts, htime⟩ := isTimeOfDay_numbers_iff.mp htime
    refine ⟨parts, hparts, ?_⟩
    split at hsplit
    · rename_i hpoint
      cases hsplit
      rw [Text.eq_append_of_splitFirst hpoint]
      obtain ⟨n, hn⟩ := Option.isSome_iff_exists.mp hfraction
      exact .point htime ((digits?_eq_some_iff Nat.zero_lt_one).mp hn)
    · cases hsplit
      exact .whole htime
  · rintro ⟨parts, hparts, h⟩
    cases h with
    | whole htime =>
      have hpoint : Text.splitFirst '.' cs = none :=
        Text.splitFirst_eq_none_iff.mpr (htime.not_mem (by decide) (by decide))
      rw [hpoint]
      exact isTimeOfDay_numbers_iff.mpr ⟨parts, hparts, htime⟩
    | @point cs fraction n htime hfraction =>
      have hpoint := Text.splitFirst_append (b := fraction) (htime.not_mem (c := '.') (by decide)
        (by decide))
      rw [hpoint]
      simp only [isFraction, (digits?_eq_some_iff Nat.zero_lt_one).mpr hfraction]
      exact isTimeOfDay_numbers_iff.mpr ⟨parts, hparts, htime⟩

/-! ## Dates and offsets -/

/-- The days of a year. -/
def daysOf (year : Nat) : Nat := if (4 ∣ year ∧ ¬100 ∣ year) ∨ 400 ∣ year then 366 else 365

/-- `YYYY-DDD-HH:MM:SS`, where days are counted from `first` on. -/
inductive IsDateText (first : Nat) : List Char → Prop
  | mk {year day : Nat} {years days clock : List Char} (hyear : IsNumeral 4 4 years year)
      (hday : IsNumeral 3 3 days day) (hfirst : first ≤ day) (hlast : day ≤ daysOf year)
      (hclock : IsClockText 3 clock) : IsDateText first (years ++ '-' :: (days ++ '-' :: clock))

/-- `[[HH:]MM:]SS` or `D-HH:MM:SS`. -/
inductive IsOffsetText : List Char → Prop
  | clock {parts : Nat} {cs : List Char} (hclock : IsClockText parts cs) : IsOffsetText cs
  | day {day : Nat} {days clock : List Char} (hday : IsNumeral 1 3 days day) (hlast : day ≤ 366)
      (hclock : IsClockText 3 clock) : IsOffsetText (days ++ '-' :: clock)

/-- A date, or an offset behind a sign. -/
inductive IsTimestampText : List Char → Prop
  | absolute {cs : List Char} (hdate : IsDateText 1 cs) : IsTimestampText cs
  | relative {sign : Char} {cs : List Char} (hsign : sign = '+' ∨ sign = '-')
      (hoffset : IsOffsetText cs) : IsTimestampText (sign :: cs)

/-- A date behind a sign, with a day 0. -/
inductive IsSignedDateText : List Char → Prop
  | mk {sign : Char} {cs : List Char} (hsign : sign = '+' ∨ sign = '-') (hdate : IsDateText 0 cs) :
      IsSignedDateText (sign :: cs)

theorem isDay_iff {first year day : Nat} :
    isDay first year day = true ↔ first ≤ day ∧ day ≤ daysOf year := by
  unfold isDay isLeapYear daysOf
  simp only [Nat.dvd_iff_mod_eq_zero, Bool.and_eq_true, Bool.or_eq_true, decide_eq_true_eq,
    beq_iff_eq, bne_iff_ne, ne_eq]

theorem isDated_iff {signed : Bool} : isDated signed (cs.splitOn '-') = true ↔
    (signed = true ∧ IsOffsetText cs) ∨ IsDateText (if signed then 0 else 1) cs := by
  have hdaysOf : daysOf 0 = 366 := by decide
  constructor
  · intro h
    generalize hparts : cs.splitOn '-' = parts at h
    match parts with
    | [clock] =>
      obtain ⟨rfl, -⟩ := Text.splitOn_eq_singleton_iff.mp hparts
      simp only [isDated, Bool.and_eq_true, isClock_iff] at h
      obtain ⟨hsigned, parts, -, hclock⟩ := h
      exact .inl ⟨hsigned, .clock hclock⟩
    | [days, clock] =>
      obtain ⟨rest, rfl, -, hrest⟩ := (Text.splitOn_eq_cons_iff (List.cons_ne_nil _ _)).mp hparts
      obtain ⟨rfl, -⟩ := Text.splitOn_eq_singleton_iff.mp hrest
      simp only [isDated, Bool.and_eq_true, isClock_iff, Option.any_eq_true, isDay_iff, hdaysOf,
        digits?_eq_some_iff Nat.zero_lt_one] at h
      obtain ⟨⟨hsigned, parts, hfull, hclock⟩, day, hday, hbounds⟩ := h
      obtain rfl := hfull trivial
      exact .inl ⟨hsigned, .day hday hbounds.2 hclock⟩
    | [years, days, clock] =>
      obtain ⟨rest, rfl, -, hrest⟩ := (Text.splitOn_eq_cons_iff (List.cons_ne_nil _ _)).mp hparts
      obtain ⟨rest, rfl, -, hrest⟩ := (Text.splitOn_eq_cons_iff (List.cons_ne_nil _ _)).mp hrest
      obtain ⟨rfl, -⟩ := Text.splitOn_eq_singleton_iff.mp hrest
      simp only [isDated, Bool.and_eq_true, isClock_iff] at h
      obtain ⟨⟨parts, hfull, hclock⟩, hdate⟩ := h
      obtain rfl := hfull trivial
      split at hdate
      · rename_i year day hyear hday
        rw [isDay_iff] at hdate
        exact .inr (.mk ((digits?_eq_some_iff (by decide)).mp hyear)
          ((digits?_eq_some_iff (by decide)).mp hday) hdate.1 hdate.2 hclock)
      · cases hdate
    | [] => cases h
    | _ :: _ :: _ :: _ :: _ => cases h
  · rintro (⟨rfl, h⟩ | h)
    · cases h with
      | clock hclock =>
        rw [List.splitOn_eq_singleton hclock.hyphen_not_mem]
        simpa [isDated] using isClock_iff.mpr ⟨_, by simp, hclock⟩
      | day hday hlast hclock =>
        rw [Text.splitOn_append (hday.not_mem (by decide)),
          List.splitOn_eq_singleton hclock.hyphen_not_mem]
        have hfull : isClock true _ = true := isClock_iff.mpr ⟨3, fun _ => rfl, hclock⟩
        simp [isDated, hfull, (digits?_eq_some_iff Nat.zero_lt_one).mpr hday, isDay_iff, hdaysOf,
          hlast]
    · obtain ⟨hyear, hday, hfirst, hlast, hclock⟩ := h
      rw [Text.splitOn_append (hyear.not_mem (by decide)),
        Text.splitOn_append (hday.not_mem (by decide)),
        List.splitOn_eq_singleton hclock.hyphen_not_mem]
      have hfull : isClock true _ = true := isClock_iff.mpr ⟨3, fun _ => rfl, hclock⟩
      simp [isDated, hfull, (digits?_eq_some_iff (by decide : 0 < 4)).mpr hyear,
        (digits?_eq_some_iff (by decide : 0 < 3)).mpr hday, isDay_iff, hfirst, hlast]

/-! ## Timestamps -/

theorem IsDateText.count_hyphen {first : Nat} (h : IsDateText first cs) : cs.count '-' = 2 := by
  obtain ⟨hyear, hday, -, -, hclock⟩ := h
  simp [List.count_eq_zero.mpr (hyear.not_mem (c := '-') (by decide)),
    List.count_eq_zero.mpr (hday.not_mem (c := '-') (by decide)),
    List.count_eq_zero.mpr hclock.hyphen_not_mem]

theorem IsOffsetText.count_hyphen_le (h : IsOffsetText cs) : cs.count '-' ≤ 1 := by
  cases h with
  | clock hclock => simp [List.count_eq_zero.mpr hclock.hyphen_not_mem]
  | day hday _ hclock =>
    simp [List.count_eq_zero.mpr (hday.not_mem (c := '-') (by decide)),
      List.count_eq_zero.mpr hclock.hyphen_not_mem]

theorem IsDateText.isDigit_head {first : Nat} {c : Char} (h : IsDateText first (c :: cs)) :
    c.isDigit = true := by
  generalize hcs : c :: cs = text at h
  obtain ⟨hyear, -, -, -, -⟩ := h
  rename_i years _ _
  cases years with
  | nil => exact absurd hyear.least_le (by decide)
  | cons d ds =>
    cases hcs
    exact hyear.ascii c List.mem_cons_self

/-- Behind the sign of a timestamp there is one hyphen at most, so no year. -/
theorem IsTimestampText.count_hyphen_le {sign : Char} (hsign : sign = '+' ∨ sign = '-')
    (h : IsTimestampText (sign :: cs)) : cs.count '-' ≤ 1 := by
  cases h with
  | absolute hdate =>
    have hdigit := hdate.isDigit_head
    rcases hsign with rfl | rfl <;> cases hdigit
  | relative _ hoffset => exact hoffset.count_hyphen_le

theorem isTimestamp_iff {text : String} : isTimestamp text = true ↔
    IsTimestampText text.toList ∨ IsSignedDateText text.toList := by
  unfold isTimestamp
  generalize text.toList = cs
  constructor
  · intro h
    split at h
    · cases h
    · split at h
      · rename_i sign rest hsign
        rcases isDated_iff.mp h with ⟨-, hoffset⟩ | hdate
        · exact .inl (.relative hsign hoffset)
        · exact .inr (.mk hsign hdate)
      · rw [Bool.and_eq_true, isDated_iff] at h
        obtain ⟨-, ⟨hsigned, -⟩ | hdate⟩ := h
        · cases hsigned
        · exact .inl (.absolute hdate)
  · rintro (h | h)
    · cases h with
      | absolute hdate =>
        cases cs with
        | nil => exact absurd hdate.count_hyphen (by decide)
        | cons c r =>
          have hdigit := hdate.isDigit_head
          have hunsigned : ¬(c = '+' ∨ c = '-') := by
            rintro (rfl | rfl) <;> cases hdigit
          simp only [if_neg hunsigned, Bool.and_eq_true]
          exact ⟨isDigit_iff.mpr hdigit, isDated_iff.mpr (.inr hdate)⟩
      | relative hsign hoffset =>
        simp only [if_pos hsign]
        exact isDated_iff.mpr (.inl ⟨rfl, hoffset⟩)
    · obtain ⟨hsign, hdate⟩ := h
      simp only [if_pos hsign]
      exact isDated_iff.mpr (.inr hdate)

/-- The pattern accepts the timestamps and the dates behind a sign, and none of those is a
timestamp. -/
theorem accepts_time_iff (text : String) :
    (Pattern.time.accepts text = true ↔
      IsTimestampText text.toList ∨ IsSignedDateText text.toList) ∧
    ¬(IsTimestampText text.toList ∧ IsSignedDateText text.toList) := by
  refine ⟨isTimestamp_iff, ?_⟩
  rintro ⟨htimestamp, hsigned⟩
  generalize text.toList = cs at htimestamp hsigned
  obtain ⟨hsign, hdate⟩ := hsigned
  have hle := htimestamp.count_hyphen_le hsign
  rw [hdate.count_hyphen] at hle
  omega

/-- A year behind a sign is accepted. -/
theorem signedYear_accepted : Pattern.time.accepts "+2024-001-00:00:00" = true ∧
    ¬IsTimestampText "+2024-001-00:00:00".toList := by
  refine ⟨by decide +kernel, ?_⟩
  intro h
  have hle := IsTimestampText.count_hyphen_le (.inl rfl) h
  revert hle
  decide

end Timestamp

end BusCompliance
