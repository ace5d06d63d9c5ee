import Mathlib.Tactic.Linarith
import Mathlib.Tactic.Ring
import RingCache.Number.Shortest
import RingCache.Text.Decimal

/-!
# Whole numbers read back from their shortest digits

A number of the format is written in the fewest digits of the interval that rounds to it. Two facts
carry this for words of 64 bits. A quotient rounds to the number that it is nearest to (`divRound_eq`),
so whatever a grid takes from the interval of a number rounds to that number (`ofNat_of_reads`). And
the search from the coarsest grid down comes to one with a hit before it comes to binary places
(`shortest_spec`): the grid of all multiples of one has one up to `2 ^ 63`, that of all multiples of
ten above it. Where a number has binary places to spare, nothing but itself is in its interval
(`reads_fine`); so words up to `2 ^ 53` are written as they are (`shows_positional`).
-/

namespace RingCache.Binary64

variable {x : Binary64} {N M K E c k : Nat}

theorem fullMantissa_eq : fullMantissa = 2 ^ 52 := by decide

@[simp] theorem pow2_natCast (n : Nat) : pow2 (n : Int) = 2 ^ n := rfl

@[simp] theorem pow2_neg (n : Nat) : pow2 (-(n : Int)) = 1 := by
  rw [pow2, show (-(n : Int)).toNat = 0 by omega]

@[simp] theorem pow10_natCast (n : Nat) : pow10 (n : Int) = 10 ^ n := rfl

@[simp] theorem pow10_neg (n : Nat) : pow10 (-(n : Int)) = 1 := by
  rw [pow10, show (-(n : Int)).toNat = 0 by omega]

/-! ### Rounding -/

/-- A quotient rounds to the number that it is nearest to, and half-way to the even one. -/
theorem divRound_eq (hK : 0 < K) (hlow : 2 * (M * K) ≤ 2 * N + K) (hhigh : 2 * N ≤ 2 * (M * K) + K)
    (hodd : M % 2 = 1 → 2 * (M * K) < 2 * N + K ∧ 2 * N < 2 * (M * K) + K) :
    divRound N K = M := by
  have hsplit : N / K * K + N % K = N := by
    rw [Nat.mul_comm]
    exact Nat.div_add_mod N K
  have hr : N % K < K := Nat.mod_lt N hK
  have hle : N / K ≤ M := by
    refine Nat.lt_succ_iff.mp ((Nat.div_lt_iff_lt_mul hK).mpr ?_)
    rw [Nat.succ_mul]
    omega
  have hge : M ≤ N / K + 1 := by
    have hlt : M * K < (N / K + 2) * K := by
      rw [Nat.add_mul]
      omega
    exact Nat.lt_succ_iff.mp (Nat.lt_of_mul_lt_mul_right hlt)
  -- the quotient without its rest is the number, or the one before it and is rounded up
  rcases Nat.eq_or_lt_of_le hle with hq | hq
  · rw [hq] at hsplit
    simp only [divRound, hq]
    split
    · rfl
    · split
      · omega
      · omega
  · obtain rfl : M = N / K + 1 := by omega
    rw [Nat.add_mul, Nat.one_mul] at hlow hhigh hodd
    simp only [divRound]
    split
    · omega
    · split
      · rfl
      · omega

theorem divRound_mul (hK : 0 < K) (M : Nat) : divRound (M * K) K = M :=
  divRound_eq hK (by omega) (by omega) (by omega)

/-- A quotient is rounded to a number no further from it than half a unit. -/
theorem divRound_near (N : Nat) (hK : 0 < K) :
    2 * N ≤ 2 * (divRound N K * K) + K ∧ 2 * (divRound N K * K) ≤ 2 * N + K := by
  have hsplit : N / K * K + N % K = N := by
    rw [Nat.mul_comm]
    exact Nat.div_add_mod N K
  have hr : N % K < K := Nat.mod_lt N hK
  simp only [divRound]
  split
  · omega
  · split
    · rw [Nat.add_mul]
      omega
    · rcases Nat.mod_two_eq_zero_or_one (N / K) with h | h
      · rw [h, Nat.add_zero]
        omega
      · rw [h, Nat.add_mul]
        omega

/-! ### Whole numbers -/

theorem exponentOf_eq (hlow : 2 ^ 52 * 2 ^ E ≤ N) (hhigh : N < 2 ^ 53 * 2 ^ E) :
    exponentOf N 1 = E := by
  have hlog : N.log2 = 52 + E := by
    have hpos : N ≠ 0 := by
      have : 0 < 2 ^ 52 * 2 ^ E := by positivity
      omega
    rw [Nat.log2_eq_iff hpos, Nat.pow_add, show 52 + E + 1 = 53 + E by omega, Nat.pow_add]
    exact ⟨hlow, hhigh⟩
  have hone : Nat.log2 1 = 0 := by decide
  have he : ((52 + E : Nat) : Int) - ((0 : Nat) : Int) - 52 = (E : Int) := by omega
  simp only [exponentOf, hlog, hone, he, pow2_natCast, pow2_neg, Nat.mul_one, Nat.one_mul]
  rw [if_neg]
  · omega
  · rw [Nat.not_lt, fullMantissa_eq, Nat.le_div_iff_mul_le (by positivity)]
    exact hlow

/-- A whole number with more than 52 binary digits behind the first one loses the last `E`. -/
theorem ofNat_eq (hlow : 2 ^ 52 * 2 ^ E ≤ N) (hhigh : N < 2 ^ 53 * 2 ^ E) :
    ofNat N =
      if divRound N (2 ^ E) = 2 * fullMantissa then ⟨false, fullMantissa, E + 1⟩
      else ⟨false, divRound N (2 ^ E), E⟩ := by
  have hpos : N ≠ 0 := by
    have : 0 < 2 ^ 52 * 2 ^ E := by positivity
    omega
  simp only [ofNat, ofRatio, exponentOf_eq hlow hhigh, pow2_natCast, pow2_neg, Nat.mul_one,
    Nat.one_mul]
  rw [if_neg (by omega)]

/-! ### The interval of a number -/

/-- A length lies between two others, or is one of them if the mantissa is even. -/
def Between (mantissa low high n : Nat) : Prop :=
  low ≤ n ∧ n ≤ high ∧ (mantissa % 2 = 1 → low < n ∧ n < high)

/-- The way down to the numbers that read back as another one, in quarters of a unit. -/
def down (x : Binary64) : Nat := if x.mantissa = fullMantissa ∧ -1074 < x.exponent then 1 else 2

/-- The unit of the binary grid and the step of the decimal one, both as whole numbers. -/
def unit (x : Binary64) (k : Int) : Nat := pow2 (x.exponent - 2) * pow10 (-k)

def step (x : Binary64) (k : Int) : Nat := pow2 (-(x.exponent - 2)) * pow10 k

/-- `c · 10 ^ k` lies in the interval of the numbers that round to `x`. -/
def Reads (x : Binary64) (k : Int) (c : Nat) : Prop :=
  Between x.mantissa ((4 * x.mantissa - x.down) * x.unit k) ((4 * x.mantissa + 2) * x.unit k)
    (c * x.step k)

/-- The test of a grid for its multiples. -/
def reads (x : Binary64) (k : Int) (c : Nat) : Bool :=
  let low := (4 * x.mantissa - x.down) * x.unit k
  let high := (4 * x.mantissa + 2) * x.unit k
  if x.mantissa % 2 = 0 then low ≤ c * x.step k && c * x.step k ≤ high
  else low < c * x.step k && c * x.step k < high

theorem reads_iff {k : Int} : x.reads k c = true ↔ x.Reads k c := by
  simp only [reads, Reads, Between]
  split
  · simp [*]
  · next hodd =>
    simp [Nat.mod_two_ne_zero.mp hodd]
    omega

theorem onGrid?_eq (x : Binary64) (k : Int) :
    x.onGrid? k =
      let value := 4 * x.mantissa * x.unit k
      if x.reads k (divRound value (x.step k)) then some (divRound value (x.step k))
      else if x.reads k (value / x.step k) then some (value / x.step k)
      else if x.reads k (value / x.step k + 1) then some (value / x.step k + 1)
      else none := rfl

/-- What a grid answers reads back. -/
theorem reads_of_onGrid? {k : Int} (h : x.onGrid? k = some c) : x.Reads k c := by
  rw [onGrid?_eq] at h
  dsimp only at h
  split at h
  · next hreads =>
    cases h
    exact reads_iff.mp hreads
  · split at h
    · next hreads =>
      cases h
      exact reads_iff.mp hreads
    · split at h
      · next hreads =>
        cases h
        exact reads_iff.mp hreads
      · cases h

theorem onGrid?_of_reads {k : Int}
    (h : x.Reads k (divRound (4 * x.mantissa * x.unit k) (x.step k))) :
    x.onGrid? k = some (divRound (4 * x.mantissa * x.unit k) (x.step k)) := by
  rw [onGrid?_eq]
  exact if_pos (reads_iff.mpr h)

theorem between_mul {m low high n q : Nat} (hq : 0 < q) :
    Between m (low * q) (high * q) (n * q) ↔ Between m low high n := by
  simp only [Between, Nat.mul_le_mul_right_iff hq, Nat.mul_lt_mul_right hq]

theorem coarse_scale (M E k : Nat) :
    ∃ v, 0 < v ∧ step ⟨false, M, E⟩ k = v * 10 ^ k ∧ unit ⟨false, M, E⟩ k * 4 = 2 ^ E * v := by
  match E with
  | 0 => exact ⟨4, by decide, by simp [step, pow2], by simp [unit, pow2]⟩
  | 1 => exact ⟨2, by decide, by simp [step, pow2], by simp [unit, pow2]⟩
  | E + 2 =>
    refine ⟨1, by decide, by simp [step], ?_⟩
    simp [unit]
    ring

/-- For a number without binary places, all lengths may be counted in quarters of one. -/
theorem reads_coarse_iff :
    Reads ⟨false, M, E⟩ k c ↔
      Between M ((4 * M - down ⟨false, M, E⟩) * 2 ^ E) ((4 * M + 2) * 2 ^ E) (4 * (c * 10 ^ k)) := by
  obtain ⟨v, hv, hstep, hunit⟩ := coarse_scale M E k
  have hscale : ∀ a, a * unit ⟨false, M, E⟩ k * 4 = a * 2 ^ E * v := by
    intro a
    rw [Nat.mul_assoc, hunit, Nat.mul_assoc]
  have hn : c * (v * 10 ^ k) * 4 = 4 * (c * 10 ^ k) * v := by ring
  rw [Reads, hstep, ← between_mul (q := 4) (by decide), hscale, hscale, hn, between_mul hv]

theorem down_le (x : Binary64) : 1 ≤ x.down ∧ x.down ≤ 2 := by
  rw [down]
  split <;> decide

/-- Whatever lies between the ends of the interval of a number rounds to it. -/
theorem ofNat_of_between {w : Nat} (hM : 2 ^ 52 ≤ M) (hM' : M < 2 ^ 53) (hw : w ≤ 2)
    (hfull : M = 2 ^ 52 → w = 1)
    (h : Between M ((4 * M - w) * 2 ^ (E + 1)) ((4 * M + 2) * 2 ^ (E + 1)) (4 * N)) :
    ofNat N = ⟨false, M, (E + 1 : Nat)⟩ := by
  obtain ⟨hlow, hhigh, hodd⟩ := h
  have hpos : 0 < 2 ^ E := by positivity
  have hpow : 2 ^ (E + 1) = 2 * 2 ^ E := by ring
  have hlow' : (4 * M - 2) * 2 ^ (E + 1) ≤ 4 * N :=
    (Nat.mul_le_mul_right _ (by omega)).trans hlow
  by_cases hsmall : N < 2 ^ 52 * 2 ^ (E + 1)
  · -- below the least mantissa the grid is twice as fine, and the interval half as long
    obtain rfl : M = 2 ^ 52 := by
      by_contra hne
      have hM1 : (4 * (2 ^ 52 + 1) - 2) * 2 ^ (E + 1) ≤ (4 * M - 2) * 2 ^ (E + 1) :=
        Nat.mul_le_mul_right _ (by omega)
      omega
    rw [hfull rfl, hpow] at hlow
    rw [hpow] at hsmall
    have hround : divRound N (2 ^ E) = 2 ^ 53 :=
      divRound_eq hpos (by omega) (by omega) (by omega)
    rw [ofNat_eq (E := E) (by omega) (by omega), hround, if_pos (by decide), fullMantissa_eq]
    rfl
  · -- from there on the grid is that of the number itself
    have hlow₂ : 2 * (M * 2 ^ (E + 1)) ≤ 2 * N + 2 ^ (E + 1) := by
      rw [Nat.sub_mul, Nat.mul_assoc] at hlow'
      omega
    have hhigh₂ : 2 * N ≤ 2 * (M * 2 ^ (E + 1)) + 2 ^ (E + 1) := by
      rw [Nat.add_mul, Nat.mul_assoc] at hhigh
      omega
    have hround : divRound N (2 ^ (E + 1)) = M := by
      refine divRound_eq (by positivity) hlow₂ hhigh₂ fun hM₂ => ?_
      obtain ⟨hlow₃, hhigh₃⟩ := hodd hM₂
      have hlow₄ : (4 * M - 2) * 2 ^ (E + 1) < 4 * N :=
        Nat.lt_of_le_of_lt (Nat.mul_le_mul_right _ (by omega)) hlow₃
      rw [Nat.sub_mul, Nat.mul_assoc] at hlow₄
      rw [Nat.add_mul, Nat.mul_assoc] at hhigh₃
      omega
    have hlarge : (M + 1) * 2 ^ (E + 1) ≤ 2 ^ 53 * 2 ^ (E + 1) := Nat.mul_le_mul_right _ hM'
    rw [Nat.add_mul] at hlarge
    rw [ofNat_eq (E := E + 1) (by omega) (by omega), hround,
      if_neg (by rw [fullMantissa_eq]; omega)]

/-- **What reads back rounds to the number**, for one without binary places. -/
theorem ofNat_of_reads (hM : 2 ^ 52 ≤ M) (hM' : M < 2 ^ 53)
    (h : Reads ⟨false, M, (E + 1 : Nat)⟩ k c) :
    ofNat (c * 10 ^ k) = ⟨false, M, (E + 1 : Nat)⟩ := by
  refine ofNat_of_between hM hM' (down_le _).2 (fun hfull => ?_) (reads_coarse_iff.mp h)
  exact if_pos ⟨hfull.trans fullMantissa_eq.symm, by show (-1074 : Int) < (E + 1 : Nat); omega⟩

/-- A number without binary places is a multiple of one. -/
theorem onGrid?_zero_coarse (hM : 0 < M) :
    onGrid? ⟨false, M, E⟩ (0 : Nat) = some (M * 2 ^ E) := by
  obtain ⟨v, hv, hstep, hunit⟩ := coarse_scale M E 0
  have hnearest : divRound (4 * M * unit ⟨false, M, E⟩ (0 : Nat)) (step ⟨false, M, E⟩ (0 : Nat)) =
      M * 2 ^ E := by
    have hvalue : 4 * M * unit ⟨false, M, E⟩ (0 : Nat) = M * (unit ⟨false, M, E⟩ (0 : Nat) * 4) := by
      ring
    rw [hstep, hvalue, hunit, Nat.pow_zero, Nat.mul_one, ← Nat.mul_assoc, divRound_mul hv]
  have hdown := down_le ⟨false, M, E⟩
  have hpos : 0 < 2 ^ E := by positivity
  have hreads : Reads ⟨false, M, E⟩ (0 : Nat) (M * 2 ^ E) := by
    rw [reads_coarse_iff, Nat.pow_zero, Nat.mul_one, ← Nat.mul_assoc]
    refine ⟨Nat.mul_le_mul_right _ (by omega), Nat.mul_le_mul_right _ (by omega), fun _ => ⟨?_, ?_⟩⟩
    · exact Nat.mul_lt_mul_of_pos_right (by omega) hpos
    · exact Nat.mul_lt_mul_of_pos_right (by omega) hpos
  rw [onGrid?_of_reads (hnearest.symm ▸ hreads)]
  exact congrArg some hnearest

/-- A number with many binary digits before the point has a multiple of ten in its interval. -/
theorem onGrid?_one_coarse (hM : 0 < M) (hE : 5 ≤ E) :
    ∃ c, c ≠ 0 ∧ onGrid? ⟨false, M, E⟩ (1 : Nat) = some c := by
  obtain ⟨v, hv, hstep, hunit⟩ := coarse_scale M E 1
  have hvalue : 4 * M * unit ⟨false, M, E⟩ (1 : Nat) = M * 2 ^ E * v := by
    rw [show 4 * M * unit ⟨false, M, E⟩ (1 : Nat) = M * (unit ⟨false, M, E⟩ (1 : Nat) * 4) by ring,
      hunit, Nat.mul_assoc]
  have hpow : 32 ≤ 2 ^ E := Nat.pow_le_pow_right (n := 2) (by decide) hE
  have hone : 1 * 2 ^ E ≤ M * 2 ^ E := Nat.mul_le_mul_right _ hM
  obtain ⟨hlow, hhigh⟩ := divRound_near (M * 2 ^ E * v) (K := v * 10) (by omega)
  -- the nearest multiple of ten is five away at most, and the interval reaches eight to each side
  have hnear : 2 * (M * 2 ^ E) ≤ 20 * divRound (M * 2 ^ E * v) (v * 10) + 10 ∧
      20 * divRound (M * 2 ^ E * v) (v * 10) ≤ 2 * (M * 2 ^ E) + 10 := by
    constructor
    · refine Nat.le_of_mul_le_mul_right ?_ hv
      linarith
    · refine Nat.le_of_mul_le_mul_right ?_ hv
      linarith
  obtain ⟨hlow, hhigh⟩ := hnear
  have hdown := down_le ⟨false, M, E⟩
  have hreads : Reads ⟨false, M, E⟩ (1 : Nat) (divRound (M * 2 ^ E * v) (v * 10)) := by
    have hbelow : (4 * M - down ⟨false, M, E⟩) * 2 ^ E ≤ (4 * M - 1) * 2 ^ E :=
      Nat.mul_le_mul_right _ (by omega)
    have hquarter : (4 * M - 1) * 2 ^ E = 4 * (M * 2 ^ E) - 2 ^ E := by
      rw [Nat.sub_mul, Nat.mul_assoc, Nat.one_mul]
    rw [reads_coarse_iff, Nat.pow_one, Nat.add_mul, Nat.mul_assoc]
    exact ⟨by omega, by omega, fun _ => ⟨by omega, by omega⟩⟩
  refine ⟨divRound (M * 2 ^ E * v) (v * 10), by omega, ?_⟩
  rw [← hvalue, ← Nat.pow_one 10, ← hstep] at hreads ⊢
  exact onGrid?_of_reads hreads

theorem fine_scale (M a k : Nat) :
    unit ⟨false, M, -(a : Int)⟩ k = 1 ∧ step ⟨false, M, -(a : Int)⟩ k = 2 ^ (a + 2) * 10 ^ k := by
  have he : -(a : Int) - 2 = -((a + 2 : Nat) : Int) := by omega
  constructor
  · simp only [unit, he, pow2_neg, pow10_neg, Nat.mul_one]
  · simp only [step, he, Int.neg_neg, pow2_natCast, pow10_natCast]

/-- For a whole number with binary places, nothing but itself reads back. -/
theorem reads_fine {n a : Nat} (h : Reads ⟨false, n * 2 ^ a, -(a : Int)⟩ k c) : c * 10 ^ k = n := by
  obtain ⟨hunit, hstep⟩ := fine_scale (n * 2 ^ a) a k
  obtain ⟨hlow, hhigh, -⟩ := h
  have hfour : 4 * (n * 2 ^ a) = n * 2 ^ (a + 2) := by ring
  have hc : c * (2 ^ (a + 2) * 10 ^ k) = c * 10 ^ k * 2 ^ (a + 2) := by ring
  have hdown := (down_le ⟨false, n * 2 ^ a, -(a : Int)⟩).2
  have hpow : 2 ^ 2 ≤ 2 ^ (a + 2) := Nat.pow_le_pow_right (by decide) (by omega)
  rw [hunit, hstep, Nat.mul_one, hfour, hc] at hlow
  rw [hunit, hstep, Nat.mul_one, hfour, hc] at hhigh
  -- the next whole number is four quarters of a unit away or more, and the interval reaches two
  rcases Nat.lt_trichotomy (c * 10 ^ k) n with hlt | heq | hlt
  · have hunits := Nat.mul_le_mul_right (2 ^ (a + 2)) hlt
    rw [Nat.succ_mul] at hunits
    omega
  · exact heq
  · have hunits := Nat.mul_le_mul_right (2 ^ (a + 2)) hlt
    rw [Nat.succ_mul] at hunits
    omega

theorem onGrid?_zero_fine (n a : Nat) :
    onGrid? ⟨false, n * 2 ^ a, -(a : Int)⟩ (0 : Nat) = some n := by
  obtain ⟨hunit, hstep⟩ := fine_scale (n * 2 ^ a) a 0
  have hfour : 4 * (n * 2 ^ a) = n * 2 ^ (a + 2) := by ring
  have hpos : 0 < 2 ^ (a + 2) := by positivity
  have hnearest : divRound (4 * (n * 2 ^ a) * unit ⟨false, n * 2 ^ a, -(a : Int)⟩ (0 : Nat))
      (step ⟨false, n * 2 ^ a, -(a : Int)⟩ (0 : Nat)) = n := by
    rw [hunit, hstep, hfour, Nat.mul_one, Nat.pow_zero, Nat.mul_one, divRound_mul hpos]
  have hdown := down_le ⟨false, n * 2 ^ a, -(a : Int)⟩
  have hreads : Reads ⟨false, n * 2 ^ a, -(a : Int)⟩ (0 : Nat) n := by
    rw [Reads, hunit, hstep, Nat.mul_one, Nat.mul_one, Nat.pow_zero, Nat.mul_one, ← hfour]
    show Between (n * 2 ^ a) (4 * (n * 2 ^ a) - _) (4 * (n * 2 ^ a) + 2) _
    exact ⟨by omega, by omega, fun hodd => ⟨by omega, by omega⟩⟩
  rw [onGrid?_of_reads (hnearest.symm ▸ hreads)]
  exact congrArg some hnearest

/-! ### The search -/

theorem coarsest_hit {k : Int} (h : x.onGrid? k = some c) (hc : c ≠ 0) (count : Nat) :
    x.coarsest (count + 1) k = ⟨c, k⟩ := by
  simp only [coarsest, h, if_neg hc]

theorem coarsest_miss {k : Int} (h : ∀ c, x.onGrid? k = some c → c = 0) (count : Nat) :
    x.coarsest (count + 1) k = x.coarsest count (k - 1) := by
  cases hgrid : x.onGrid? k with
  | none => simp only [coarsest, hgrid]
  | some c => simp only [coarsest, hgrid, if_pos (h c hgrid)]

/-- The search ends at a grid with a hit, no finer than any grid with a hit that it comes to. -/
theorem coarsest_spec {count j : Nat} {k : Int} (hj : j < count) (hhit : x.onGrid? (k - j) = some c)
    (hc : c ≠ 0) :
    ∃ digits scale, x.coarsest count k = ⟨digits, scale⟩ ∧ digits ≠ 0 ∧
      x.onGrid? scale = some digits ∧ k - j ≤ scale := by
  induction count generalizing j k with
  | zero => exact absurd hj (Nat.not_lt_zero j)
  | succ count ih =>
    by_cases hfound : ∃ digits, x.onGrid? k = some digits ∧ digits ≠ 0
    · obtain ⟨digits, hgrid, hdigits⟩ := hfound
      exact ⟨digits, k, coarsest_hit hgrid hdigits count, hdigits, hgrid, by omega⟩
    · cases j with
      | zero =>
        rw [Int.natCast_zero, Int.sub_zero] at hhit
        exact absurd ⟨c, hhit, hc⟩ hfound
      | succ j =>
        have hsame : k - ((j + 1 : Nat) : Int) = k - 1 - j := by omega
        rw [coarsest_miss (fun c hc => by_contra fun hne => hfound ⟨c, hc, hne⟩), hsame]
        exact ih (Nat.lt_of_succ_lt_succ hj) (hsame ▸ hhit)

/-- The search for a number below `2 ^ 65` comes to the grid of all multiples of one, or to that of all
multiples of ten if it is at least `2 ^ 63`. -/
theorem shortest_spec {K : Nat} {e : Int} (hM : 2 ^ 52 ≤ M) (hM' : M < 2 ^ 53) (he : -52 ≤ e)
    (hK : K ≤ 1) (hlarge : e ≤ 10 ∨ K = 1 ∧ e ≤ 12) (hhit : onGrid? ⟨false, M, e⟩ K = some c)
    (hc : c ≠ 0) :
    ∃ digits k : Nat, shortest ⟨false, M, e⟩ = ⟨digits, k⟩ ∧ digits ≠ 0 ∧
      onGrid? ⟨false, M, e⟩ k = some digits := by
  have hlog : M.log2 = 52 := (Nat.log2_eq_iff (by omega)).mpr ⟨hM, hM'⟩
  obtain ⟨first, hfirst⟩ : ∃ first, first = (((52 : Nat) : Int) + 1 + e) * 30103 / 100000 + 1 :=
    ⟨_, rfl⟩
  have hstart : shortest ⟨false, M, e⟩ = coarsest ⟨false, M, e⟩ 20 first := by
    rw [shortest, if_neg (by show M ≠ 0; omega), hfirst]
    simp only [hlog, Int.fdiv_eq_ediv_of_nonneg _ (by decide : (0 : Int) ≤ 100000)]
  -- the first grid is coarser than the number, and 20 are tried from there on
  have hgrid : first - ((first - K).toNat : Int) = K := by omega
  obtain ⟨digits, scale, hshort, hdigits, hscale, hle⟩ :=
    coarsest_spec (show (first - K).toNat < 20 by omega) (hgrid.symm ▸ hhit) hc
  obtain ⟨k, rfl⟩ : ∃ k : Nat, scale = k := ⟨scale.toNat, by omega⟩
  exact ⟨digits, k, hstart.trans hshort, hdigits, hscale⟩

/-! ### Whole numbers are shown -/

/-- A text shows a whole number: it is made of digits, the number they make rounds as the one shown
does, and is the same up to `2 ^ 53`. -/
def Shows (text : String) (n : Nat) : Prop :=
  ∃ m, Text.digits? text.toList = some m ∧ ofNat m = ofNat n ∧ (n ≤ 2 ^ 53 → m = n)

theorem foldl_digits (cs : List Char) (init : Nat) :
    cs.foldl (fun n c => n * 10 + (c.toNat - 48)) init = Nat.ofDigitChars 10 cs init := by
  rw [Nat.ofDigitChars_eq_foldl]
  congr
  funext n c
  rw [Nat.mul_comm]
  rfl

theorem digits?_append_zeros (c k : Nat) :
    Text.digits? (toString c ++ zeros k).toList = some (c * 10 ^ k) := by
  have hlist : (toString c ++ zeros k).toList = Nat.toDigits 10 c ++ List.replicate k '0' := by
    rw [String.toList_append, zeros, String.toList_ofList, Nat.toString_eq_ofList_toDigits,
      String.toList_ofList]
  have hdigits : ∀ d ∈ Nat.toDigits 10 c ++ List.replicate k '0', d.isDigit = true := by
    intro d hd
    rcases List.mem_append.mp hd with hd | hd
    · exact Nat.isDigit_of_mem_toDigits (b := 10) (by decide) (by decide) hd
    · rw [List.eq_of_mem_replicate hd]
      rfl
  rw [hlist, Text.digits?, if_neg, foldl_digits, Nat.ofDigitChars_append, Nat.ofDigitChars_toDigits,
    Nat.ofDigitChars_replicate_zero, Nat.mul_comm]
  · decide
  · decide
  · simp [Nat.toDigits_ne_nil, List.all_eq_true.mpr hdigits]

theorem positional_of_shortest {e : Int} (h : shortest ⟨false, M, e⟩ = ⟨c, k⟩) (hc : c ≠ 0) :
    positional ⟨false, M, e⟩ = toString c ++ zeros k := by
  rw [positional, h]
  simp [hc]

/-- Below `2 ^ 53` a whole number is a number of the format, with binary places to spare. -/
theorem ofNat_fine {n : Nat} (hpos : 0 < n) (hn : n < 2 ^ 53) :
    ∃ a : Nat, a ≤ 52 ∧ 2 ^ 52 ≤ n * 2 ^ a ∧ n * 2 ^ a < 2 ^ 53 ∧
      ofNat n = ⟨false, n * 2 ^ a, -(a : Int)⟩ := by
  have hlog : n.log2 ≤ 52 := Nat.lt_succ_iff.mp ((Nat.log2_lt (by omega)).mpr hn)
  obtain ⟨hlow, hhigh⟩ := (Nat.log2_eq_iff (n := n) (by omega)).mp rfl
  obtain ⟨a, ha⟩ : ∃ a, n.log2 + a = 52 := ⟨52 - n.log2, by omega⟩
  have hlow' : 2 ^ 52 ≤ n * 2 ^ a := by
    rw [← ha, Nat.pow_add]
    exact Nat.mul_le_mul_right _ hlow
  have hhigh' : n * 2 ^ a < 2 ^ 53 := by
    rw [show 53 = n.log2 + 1 + a by omega, Nat.pow_add]
    exact Nat.mul_lt_mul_of_pos_right hhigh (by positivity)
  refine ⟨a, by omega, hlow', hhigh', ?_⟩
  have hone : Nat.log2 1 = 0 := by decide
  have he : (n.log2 : Int) - ((0 : Nat) : Int) - 52 = -(a : Int) := by omega
  have hexp : exponentOf n 1 = -(a : Int) := by
    simp only [exponentOf, hone, he, pow2_natCast, pow2_neg, Int.neg_neg, Nat.mul_one, Nat.div_one]
    rw [if_neg (by rw [fullMantissa_eq]; omega)]
    omega
  have hround : divRound (n * 2 ^ a) 1 = n * 2 ^ a := by
    have hone := divRound_mul (K := 1) (by decide) (n * 2 ^ a)
    rwa [Nat.mul_one] at hone
  simp only [ofNat, ofRatio, hexp, pow2_natCast, pow2_neg, Int.neg_neg, Nat.mul_one, hround]
  rw [if_neg (by omega), if_neg (by rw [fullMantissa_eq]; omega)]

/-- From `2 ^ 53` on a whole number becomes one without binary places. -/
theorem ofNat_coarse {n : Nat} (hlow : 2 ^ 53 ≤ n) (hn : n < 2 ^ 64) :
    ∃ M E, 2 ^ 52 ≤ M ∧ M < 2 ^ 53 ∧ E ≤ 11 ∧ ofNat n = ⟨false, M, (E + 1 : Nat)⟩ := by
  have hlog : n.log2 < 64 := (Nat.log2_lt (by omega)).mpr hn
  have hlog' : 53 ≤ n.log2 := (Nat.le_log2 (by omega)).mpr hlow
  obtain ⟨E, hE⟩ : ∃ E, n.log2 = 53 + E := ⟨n.log2 - 53, by omega⟩
  obtain ⟨hlow₂, hhigh₂⟩ := (Nat.log2_eq_iff (by omega)).mp hE
  have hlow₃ : 2 ^ 52 * 2 ^ (E + 1) ≤ n := by
    rw [← Nat.pow_add, show 52 + (E + 1) = 53 + E by omega]
    exact hlow₂
  have hhigh₃ : n < 2 ^ 53 * 2 ^ (E + 1) := by
    rw [← Nat.pow_add, show 53 + (E + 1) = 53 + E + 1 by omega]
    exact hhigh₂
  obtain ⟨hnear, hnear'⟩ := divRound_near n (K := 2 ^ (E + 1)) (by positivity)
  have hM : 2 ^ 52 ≤ divRound n (2 ^ (E + 1)) := by
    refine Nat.lt_succ_iff.mp (Nat.lt_of_mul_lt_mul_right (a := 2 ^ (E + 1)) ?_)
    rw [Nat.succ_mul]
    have : 0 < 2 ^ (E + 1) := by positivity
    omega
  have hM' : divRound n (2 ^ (E + 1)) ≤ 2 ^ 53 := by
    refine Nat.lt_succ_iff.mp (Nat.lt_of_mul_lt_mul_right (a := 2 ^ (E + 1)) ?_)
    rw [Nat.succ_mul]
    have : 0 < 2 ^ (E + 1) := by positivity
    omega
  rw [ofNat_eq hlow₃ hhigh₃, fullMantissa_eq]
  -- rounding up may carry into one more binary digit
  split
  · exact ⟨2 ^ 52, E + 1, by decide, by decide, by omega, rfl⟩
  · exact ⟨divRound n (2 ^ (E + 1)), E, hM, by omega, by omega, rfl⟩

/-- **A word is shown**: a whole number below `2 ^ 64` is written in digits that round as it does, and
in its own up to `2 ^ 53`. -/
theorem shows_positional {n : Nat} (hn : n < 2 ^ 64) : Shows (ofNat n).positional n := by
  rcases Nat.lt_or_ge n (2 ^ 53) with hsmall | hlarge
  · rcases Nat.eq_zero_or_pos n with rfl | hpos
    · exact ⟨0, by decide +kernel, rfl, fun _ => rfl⟩
    · obtain ⟨a, ha, hlow, hhigh, hx⟩ := ofNat_fine hpos hsmall
      obtain ⟨c, k, hshort, hc, hgrid⟩ := shortest_spec (K := 0) hlow hhigh (by omega) (by decide)
        (.inl (by omega)) (onGrid?_zero_fine n a) (by omega)
      have hself : c * 10 ^ k = n := reads_fine (reads_of_onGrid? hgrid)
      refine ⟨n, ?_, rfl, fun _ => rfl⟩
      rw [hx, positional_of_shortest hshort hc, digits?_append_zeros, hself]
  · rcases Nat.eq_or_lt_of_le hlarge with rfl | hlarge'
    · exact ⟨2 ^ 53, by decide +kernel, rfl, fun _ => rfl⟩
    · obtain ⟨M, E, hM, hM', hE, hx⟩ := ofNat_coarse hlarge hn
      obtain ⟨c, k, hshort, hc, hgrid⟩ : ∃ c k : Nat, shortest ⟨false, M, (E + 1 : Nat)⟩ = ⟨c, k⟩ ∧
          c ≠ 0 ∧ onGrid? ⟨false, M, (E + 1 : Nat)⟩ k = some c := by
        rcases Nat.lt_or_ge E 10 with hfew | hmany
        · exact shortest_spec (K := 0) hM hM' (by omega) (by decide) (.inl (by omega))
            (onGrid?_zero_coarse (by omega)) (by positivity)
        · obtain ⟨c, hc, hgrid⟩ := onGrid?_one_coarse (M := M) (E := E + 1) (by omega) (by omega)
          exact shortest_spec (K := 1) hM hM' (by omega) (by decide)
            (.inr ⟨rfl, by omega⟩) hgrid hc
      refine ⟨c * 10 ^ k, ?_, ?_, fun hle => absurd hle (by omega)⟩
      · rw [hx, positional_of_shortest hshort hc, digits?_append_zeros]
      · rw [ofNat_of_reads hM hM' (reads_of_onGrid? hgrid), hx]

example : (ofNat (2 ^ 64 - 1)).positional = "18446744073709552000" := by decide +kernel

end RingCache.Binary64
