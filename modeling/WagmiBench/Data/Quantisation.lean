import WagmiBench.Data.Builder

/-!
# Quantisation

What the builder's integers are: a price in ticks is the floor, the ceiling or the half-up rounding of
the exact quotient, an amount is the exact product or refused, and prices that are in order as
decimals stay in order as ticks.
-/

namespace WagmiBench.Data

open WagmiBench.Lib WagmiBench.Core

/-! ## Rounding a quotient -/

/-- The integer a rational is rounded to; halves go up. -/
def Rounding.round (rounding : Rounding) (q : ℚ) : ℤ :=
  match rounding with
  | .floor => ⌊q⌋
  | .ceil => ⌈q⌉
  | .nearest => ⌊q + 1 / 2⌋

theorem Rounding.round_mono (rounding : Rounding) {p q : ℚ} (h : p ≤ q) :
    rounding.round p ≤ rounding.round q := by
  cases rounding with
  | floor => exact Int.floor_le_floor h
  | ceil => exact Int.ceil_le_ceil h
  | nearest => exact Int.floor_le_floor (by linarith)

theorem floor_le_nearest (q : ℚ) : Rounding.floor.round q ≤ Rounding.nearest.round q :=
  Int.floor_le_floor (by linarith)

theorem nearest_le_ceil (q : ℚ) : Rounding.nearest.round q ≤ Rounding.ceil.round q := by
  have hceil : q ≤ (⌈q⌉ : ℤ) := Int.le_ceil q
  have hlt : ⌊q + 1 / 2⌋ < ⌈q⌉ + 1 := Int.floor_lt.mpr (by push_cast; linarith)
  exact Int.lt_add_one_iff.mp hlt

/-- Quotient and remainder, rounded, are the quotient rounded. -/
theorem rounded_divmod {n d : ℕ} (hd : 0 < d) (rounding : Rounding) :
    ((if rounding = .ceil ∧ n % d ≠ 0 then (n / d + 1 : ℕ)
      else if rounding = .nearest ∧ d ≤ n % d * 2 then (n / d + 1 : ℕ) else n / d : ℕ) : ℤ) =
      rounding.round ((n : ℚ) / d) := by
  have hdq : (0 : ℚ) < d := by exact_mod_cast hd
  have hsplit : (n : ℚ) / d = (n / d : ℕ) + ((n % d : ℕ) : ℚ) / d := by
    rw [div_eq_iff hdq.ne', add_mul, div_mul_cancel₀ _ hdq.ne']
    exact_mod_cast (Nat.div_add_mod' n d).symm
  have hrem : ((n % d : ℕ) : ℚ) / d < 1 := by
    rw [div_lt_one hdq]
    exact_mod_cast Nat.mod_lt n hd
  have hrem' : (0 : ℚ) ≤ ((n % d : ℕ) : ℚ) / d := by positivity
  rw [hsplit]
  generalize n / d = quotient
  cases rounding with
  | floor =>
    simp only [reduceCtorEq, false_and, if_false, Rounding.round]
    symm
    rw [Int.floor_eq_iff]
    push_cast
    constructor <;> linarith
  | ceil =>
    simp only [true_and, reduceCtorEq, false_and, if_false, Rounding.round]
    by_cases hzero : n % d = 0
    · rw [if_neg (not_not.mpr hzero), hzero, Nat.cast_zero, zero_div, add_zero, Int.ceil_natCast]
    · rw [if_pos hzero]
      have hpos : (0 : ℚ) < ((n % d : ℕ) : ℚ) / d :=
        div_pos (by exact_mod_cast Nat.pos_of_ne_zero hzero) hdq
      symm
      rw [Int.ceil_eq_iff]
      push_cast
      constructor <;> linarith
  | nearest =>
    simp only [reduceCtorEq, false_and, if_false, true_and, Rounding.round]
    have hhalf : d ≤ n % d * 2 ↔ (1 : ℚ) / 2 ≤ ((n % d : ℕ) : ℚ) / d := by
      rw [div_le_div_iff₀ two_pos hdq, one_mul]
      exact_mod_cast Iff.rfl
    split
    · rename_i hle
      have := hhalf.mp hle
      symm
      rw [Int.floor_eq_iff]
      push_cast
      constructor <;> linarith
    · rename_i hlt
      have := not_le.mp (mt hhalf.mpr hlt)
      symm
      rw [Int.floor_eq_iff]
      push_cast
      constructor <;> linarith

/-! ## Decimal texts -/

section Decimals

variable {limits : Json.Limits}

/-- The interpreter converts the digits of a text, and of its exponent. -/
structure Fits (limits : Json.Limits) (d : DecimalText) : Prop where
  digits : (d.whole ++ d.fractionDigits).length ≤ limits.maxDigits
  exponent : ∀ exponent ∈ d.exponent, exponent.digits.length ≤ limits.maxDigits

theorem intOfDigits_eq_ok {digits : Text} {n : ℕ} : intOfDigits limits digits = .ok n ↔
    digits.length ≤ limits.maxDigits ∧ ofDecimal digits = n := by
  simp [intOfDigits, bind_ok_iff, pure_eq_ok]

theorem intOfExponent_eq_ok {exponent : Option Exponent} {n : ℤ} :
    intOfExponent limits exponent = .ok n ↔
      (∀ e ∈ exponent, e.digits.length ≤ limits.maxDigits) ∧
        (exponent.map Exponent.value).getD 0 = n := by
  cases exponent with
  | none => simp [intOfExponent]
  | some e =>
    simp [intOfExponent, bind_ok_iff, pure_eq_ok, intOfDigits_eq_ok, Exponent.value, and_assoc]

theorem powerOfTen_eq_ok {exponent : ℤ} (h : 0 ≤ exponent) :
    powerOfTen exponent = .ok (10 ^ exponent.toNat) := by
  rw [powerOfTen, require_pos h]
  rfl

theorem zpow_toNat {exponent : ℤ} (h : 0 ≤ exponent) :
    ((10 ^ exponent.toNat : ℕ) : ℚ) = 10 ^ exponent := by
  lift exponent to ℕ using h
  simp

/-- **Prices in ticks.** A decimal price is the rounded quotient by the tick, exactly. -/
theorem priceTicks_text {value : Text} {d : DecimalText} (htext : strip value = d.text)
    (hsign : d.sign ≠ some .minus) (hfits : Fits limits d) (tick : ℕ+) (label : Text)
    (rounding : Rounding) : priceTicks limits value tick label rounding =
      .ok (rounding.round (d.value * 1_000_000 / tick)) := by
  have hpower : intOfExponent limits d.exponent = .ok d.power :=
    intOfExponent_eq_ok.mpr ⟨hfits.exponent, rfl⟩
  have htick : (0 : ℚ) < tick := by exact_mod_cast tick.pos
  rw [priceTicks, matchDecimal_eq_some.mpr htext]
  dsimp only
  rw [require_pos hsign, ok_bind, intOfDigits_eq_ok.mpr ⟨hfits.digits, rfl⟩, ok_bind, hpower, ok_bind,
    DecimalText.value, if_neg hsign, DecimalText.magnitude_eq, ← DecimalText.digits]
  have finish : ∀ {n m : ℕ}, 0 < m → (n : ℚ) / m =
      d.digits * 10 ^ (d.power - d.fractionDigits.length) * 1_000_000 / tick →
      (if rounding = .ceil ∧ n % m ≠ 0 then pure ((n / m + 1 : ℕ) : ℤ)
        else if rounding = .nearest ∧ m ≤ n % m * 2 then pure ((n / m + 1 : ℕ) : ℤ)
        else pure ((n / m : ℕ) : ℤ) : Build ℤ) =
      .ok (rounding.round
        (d.digits * 10 ^ (d.power - d.fractionDigits.length) * 1_000_000 / tick)) := by
    intro n m hm hquotient
    rw [← hquotient, ← rounded_divmod hm]
    split
    · rfl
    · split <;> rfl
  generalize d.power - (d.fractionDigits.length : ℤ) = exponent at *
  by_cases hexponent : 0 ≤ exponent
  · rw [if_pos hexponent, powerOfTen_eq_ok hexponent, ok_bind, pure_bind]
    refine finish tick.pos ?_
    rw [Nat.cast_mul, Nat.cast_mul, zpow_toNat hexponent]
    norm_num
  · have hneg : 0 ≤ -exponent := by omega
    rw [if_neg hexponent, powerOfTen_eq_ok hneg, ok_bind, pure_bind]
    refine finish (Nat.mul_pos (by positivity) tick.pos) ?_
    rw [Nat.cast_mul, Nat.cast_mul, zpow_toNat hneg, zpow_neg]
    field_simp
    norm_num

/-- What a price text is converted to. -/
structure PriceConverted (limits : Json.Limits) (value : Text) (d : DecimalText) (tick : ℕ+)
    (label : Text) (rounding : Rounding) : Prop where
  exact : d.sign ≠ some .minus → Fits limits d → priceTicks limits value tick label rounding =
    .ok (rounding.round (d.value * 1_000_000 / tick))
  negative : d.sign = some .minus →
    priceTicks limits value tick label rounding = .error (.row label .negative)
  overlong : d.sign ≠ some .minus → ¬ Fits limits d →
    priceTicks limits value tick label rounding = .error .digits

theorem priceConverted {value : Text} {d : DecimalText} (htext : strip value = d.text) (tick : ℕ+)
    (label : Text) (rounding : Rounding) : PriceConverted limits value d tick label rounding where
  exact hsign hfits := priceTicks_text htext hsign hfits tick label rounding
  negative hsign := by
    rw [priceTicks, matchDecimal_eq_some.mpr htext]
    dsimp only
    rw [require_neg (not_not.mpr hsign)]
    rfl
  overlong hsign hfits := by
    rw [priceTicks, matchDecimal_eq_some.mpr htext]
    dsimp only
    rw [require_pos hsign, ok_bind]
    by_cases hdigits : (d.whole ++ d.fractionDigits).length ≤ limits.maxDigits
    · have hexponent : intOfExponent limits d.exponent = .error .digits := by
        cases hd : d.exponent with
        | none => exact absurd ⟨hdigits, by simp [hd]⟩ hfits
        | some e =>
          have hlong : ¬ e.digits.length ≤ limits.maxDigits := fun hle =>
            hfits ⟨hdigits, by rintro e' he'; rw [hd] at he'; obtain rfl := Option.mem_some.mp he'; exact hle⟩
          rw [intOfExponent, intOfDigits, require_neg hlong]
          rfl
      rw [intOfDigits_eq_ok.mpr ⟨hdigits, rfl⟩, ok_bind, hexponent]
      rfl
    · rw [intOfDigits, require_neg hdigits]
      rfl

/-- A price in ticks is that of a decimal text. -/
theorem priceTicks_eq_ok {value : Text} {tick : ℕ+} {label : Text} {rounding : Rounding} {n : ℤ}
    (h : priceTicks limits value tick label rounding = .ok n) :
    ∃ d : DecimalText, strip value = d.text ∧ n = rounding.round (d.value * 1_000_000 / tick) := by
  cases hmatch : matchDecimal (strip value) with
  | none => simp [priceTicks, hmatch] at h
  | some d =>
    have htext := matchDecimal_eq_some.mp hmatch
    have converted := @priceConverted limits _ _ htext tick label rounding
    by_cases hsign : d.sign = some .minus
    · simp [converted.negative hsign] at h
    · by_cases hfits : Fits limits d
      · exact ⟨d, htext, (Except.ok.inj ((converted.exact hsign hfits).symm.trans h)).symm⟩
      · simp [converted.overlong hsign hfits] at h

/-- An exact quotient of magnitudes, with the sign of the numerator. -/
theorem signed_quotient {numerator : ℤ} {denominator : ℕ} (h : numerator.natAbs % denominator = 0) :
    ((if 0 ≤ numerator then ((numerator.natAbs / denominator : ℕ) : ℤ)
      else -((numerator.natAbs / denominator : ℕ) : ℤ) : ℤ) : ℚ) =
      (numerator : ℚ) / (denominator : ℕ) := by
  obtain ⟨quotient, hquotient⟩ := Nat.dvd_of_mod_eq_zero h
  rcases Nat.eq_zero_or_pos denominator with rfl | hpos
  · simp
  · rw [hquotient, Nat.mul_div_cancel_left _ hpos, eq_div_iff (by exact_mod_cast hpos.ne')]
    split
    · have : numerator = denominator * quotient := by omega
      rw [this]
      push_cast
      ring
    · have : numerator = -(denominator * quotient : ℤ) := by omega
      rw [this]
      push_cast
      ring

/-- **Scaled amounts.** What is returned is the exact product. -/
theorem scaledDecimal_eq_ok {value : Text} {scale : ℤ} {label : Text} {n : ℤ}
    (h : scaledDecimal limits value scale label = .ok n) :
    ∃ d : DecimalText, strip value = d.text ∧ Fits limits d ∧ (n : ℚ) = d.value * scale := by
  unfold scaledDecimal at h
  split at h
  · cases h
  · rename_i d hmatch
    simp only [bind_ok_iff, intOfDigits_eq_ok, intOfExponent_eq_ok] at h
    obtain ⟨_, ⟨hdigits, rfl⟩, _, ⟨hexponent, rfl⟩, h⟩ := h
    refine ⟨d, matchDecimal_eq_some.mp hmatch, ⟨hdigits, hexponent⟩, ?_⟩
    have hvalue : d.value = ((if d.sign = some .minus then -1 else 1 : ℤ) : ℚ) * d.digits *
        10 ^ (d.power - d.fractionDigits.length) := by
      rw [DecimalText.value, DecimalText.magnitude_eq]
      split <;> push_cast <;> ring
    rw [hvalue]
    rw [← DecimalText.digits, ← DecimalText.power] at h
    generalize (if d.sign = some .minus then -1 else 1 : ℤ) = sign at *
    generalize d.power - (d.fractionDigits.length : ℤ) = exponent at *
    split at h
    · rename_i hnonneg
      rw [powerOfTen_eq_ok hnonneg, ok_bind] at h
      obtain rfl := Except.ok.inj h
      rw [← zpow_toNat hnonneg]
      push_cast
      ring
    · rename_i hneg
      have hneg : 0 ≤ -exponent := by omega
      rw [powerOfTen_eq_ok hneg, ok_bind] at h
      obtain ⟨_, hexact, h⟩ := bind_ok_iff.mp h
      have hexact := require_eq_ok.mp hexact
      obtain rfl := Except.ok.inj h
      rw [signed_quotient hexact, zpow_toNat hneg, zpow_neg]
      push_cast
      field_simp

end Decimals

/-! ## Bar rows -/

section Bars

variable {limits : Json.Limits} {unicode : Unicode} {archive : BarArchive} {columns : BarColumns}
  {label : Text} {row : List Text}

/-- A cell holds a decimal text. -/
def HoldsDecimal (row : List Text) (index : ℕ) (d : DecimalText) : Prop :=
  ∃ value, row[index]? = some value ∧ strip value = d.text

/-- The four price texts of a row. -/
structure RowPrices (columns : BarColumns) (row : List Text) (o h l c : DecimalText) : Prop where
  open_ : HoldsDecimal row columns.open_ o
  high : HoldsDecimal row columns.high h
  low : HoldsDecimal row columns.low l
  close : HoldsDecimal row columns.close c

/-- The prices are in order as exact decimals. -/
def InOrder (o h l c : DecimalText) : Prop :=
  (l.value ≤ o.value ∧ l.value ≤ c.value) ∧ o.value ≤ h.value ∧ c.value ≤ h.value

/-- A record holds the quantised prices of a row, in order. -/
structure Quantised (tick : ℕ+) (columns : BarColumns) (row : List Text) (record : BarRecord) :
    Prop where
  prices : ∃ o h l c, RowPrices columns row o h l c ∧
    record.o = Rounding.nearest.round (o.value * 1_000_000 / tick) ∧
    record.h = Rounding.ceil.round (h.value * 1_000_000 / tick) ∧
    record.l = Rounding.floor.round (l.value * 1_000_000 / tick) ∧
    record.c = Rounding.nearest.round (c.value * 1_000_000 / tick)
  low : record.l ≤ record.o ∧ record.l ≤ record.c
  high : record.o ≤ record.h ∧ record.c ≤ record.h

/-- An OHLC violation. -/
def BuildError.IsOrder : BuildError → Prop
  | .row _ .lowExceeds => True
  | .row _ .highBelow => True
  | _ => False

theorem cell_eq_ok {index : ℕ} {value : Text} : cell row index = .ok value ↔
    row[index]? = some value := by
  unfold cell
  split <;> simp [*]

theorem barPrice_eq_ok {index : ℕ} {name : String} {rounding : Rounding} {n : ℤ}
    (h : barPrice limits archive label row index name rounding = .ok n) :
    ∃ d, HoldsDecimal row index d ∧
      n = rounding.round (d.value * 1_000_000 / archive.tickSizeMicro) := by
  obtain ⟨raw, hcell, h⟩ := bind_ok_iff.mp h
  obtain ⟨d, htext, hn⟩ := priceTicks_eq_ok h
  exact ⟨d, ⟨raw, cell_eq_ok.mp hcell, htext⟩, hn⟩

/-- Prices in order are in order as ticks. -/
theorem InOrder.ticks {o h l c : DecimalText} (order : InOrder o h l c) (tick : ℕ+) :
    (Rounding.floor.round (l.value * 1_000_000 / tick) ≤
        Rounding.nearest.round (o.value * 1_000_000 / tick) ∧
      Rounding.floor.round (l.value * 1_000_000 / tick) ≤
        Rounding.nearest.round (c.value * 1_000_000 / tick)) ∧
    Rounding.nearest.round (o.value * 1_000_000 / tick) ≤
      Rounding.ceil.round (h.value * 1_000_000 / tick) ∧
    Rounding.nearest.round (c.value * 1_000_000 / tick) ≤
      Rounding.ceil.round (h.value * 1_000_000 / tick) := by
  have htick : (0 : ℚ) < tick := by exact_mod_cast tick.pos
  have scale : ∀ {p q : ℚ}, p ≤ q → p * 1_000_000 / tick ≤ q * 1_000_000 / tick := fun hpq => by
    gcongr
  obtain ⟨⟨hlo, hlc⟩, hoh, hch⟩ := order
  exact ⟨⟨(floor_le_nearest _).trans (Rounding.round_mono _ (scale hlo)),
    (floor_le_nearest _).trans (Rounding.round_mono _ (scale hlc))⟩,
    (Rounding.round_mono _ (scale hoh)).trans (nearest_le_ceil _),
    (Rounding.round_mono _ (scale hch)).trans (nearest_le_ceil _)⟩

/-! ### What is not an OHLC violation -/

/-- Everything but an OHLC violation. -/
abbrev Otherwise (e : BuildError) : Prop := ¬ e.IsOrder

theorem intOfDigits_raises (digits : Text) : RaisesOnly Otherwise (intOfDigits limits digits) :=
  .bind (raisesOnly_require id) fun _ => raisesOnly_ok _

theorem intOfExponent_raises (exponent : Option Exponent) :
    RaisesOnly Otherwise (intOfExponent limits exponent) := by
  cases exponent with
  | none => exact raisesOnly_ok _
  | some e => exact .bind (intOfDigits_raises _) fun _ => raisesOnly_ok _

theorem powerOfTen_raises (exponent : ℤ) : RaisesOnly Otherwise (powerOfTen exponent) :=
  .bind (raisesOnly_require id) fun _ => raisesOnly_ok _

theorem priceTicks_raises (value : Text) (tick : ℕ+) (label : Text) (rounding : Rounding) :
    RaisesOnly Otherwise (priceTicks limits value tick label rounding) := by
  unfold priceTicks
  split
  · exact raisesOnly_error id
  · refine .bind (raisesOnly_require id) fun _ => .bind (intOfDigits_raises _) fun _ =>
      .bind (intOfExponent_raises _) fun _ => ?_
    have rounded : ∀ n m : ℕ, RaisesOnly Otherwise
        (if rounding = .ceil ∧ n % m ≠ 0 then pure ((n / m + 1 : ℕ) : ℤ)
          else if rounding = .nearest ∧ m ≤ n % m * 2 then pure ((n / m + 1 : ℕ) : ℤ)
          else pure ((n / m : ℕ) : ℤ) : Build ℤ) := by
      intro n m
      split
      · exact raisesOnly_ok _
      · split
        · exact raisesOnly_ok _
        · exact raisesOnly_ok _
    dsimp only
    split
    · exact .bind (powerOfTen_raises _) fun _ => rounded _ _
    · exact .bind (powerOfTen_raises _) fun _ => rounded _ _

theorem scaledDecimal_raises (value : Text) (scale : ℤ) (label : Text) :
    RaisesOnly Otherwise (scaledDecimal limits value scale label) := by
  unfold scaledDecimal
  split
  · exact raisesOnly_error id
  · refine .bind (intOfDigits_raises _) fun _ => .bind (intOfExponent_raises _) fun _ => ?_
    dsimp only
    split
    · exact .bind (powerOfTen_raises _) fun _ => raisesOnly_ok _
    · exact .bind (powerOfTen_raises _) fun _ => .bind (raisesOnly_require id) fun _ =>
        raisesOnly_ok _

theorem cell_raises (row : List Text) (index : ℕ) : RaisesOnly Otherwise (cell row index) := by
  unfold cell
  split
  · exact raisesOnly_error id
  · exact raisesOnly_ok _

theorem timestampMs_raises (value : Text) (unit : TimestampUnit) (label : Text) :
    RaisesOnly Otherwise (timestampMs unicode value unit label) := by
  unfold timestampMs
  split
  · exact raisesOnly_error id
  · refine .bind (raisesOnly_require id) fun _ => ?_
    split
    · exact raisesOnly_ok _
    · exact .bind (raisesOnly_require id) fun _ => raisesOnly_ok _

theorem barPrice_raises (label : Text) (row : List Text) (index : ℕ) (name : String)
    (rounding : Rounding) :
    RaisesOnly Otherwise (barPrice limits archive label row index name rounding) :=
  .bind (cell_raises _ _) fun _ => priceTicks_raises _ _ _ _

theorem barVolume_raises (columns : BarColumns) (label : Text) (row : List Text) :
    RaisesOnly Otherwise (barVolume limits archive columns label row) := by
  unfold barVolume
  split
  · exact .bind (cell_raises _ _) fun _ => .bind (scaledDecimal_raises _ _ _) fun _ =>
      .bind (raisesOnly_require id) fun _ => raisesOnly_ok _
  · exact raisesOnly_ok _

/-! ### One row -/

/-- An OHLC violation is not raised by a step that raises none. -/
theorem order_of_bind {α β : Type} {head : Build α} {tail : α → Build β} {e : BuildError}
    (hhead : RaisesOnly Otherwise head) (he : e.IsOrder) (h : (head >>= tail) = .error e) :
    ∃ a, head = .ok a ∧ tail a = .error e := by
  obtain h | h := bind_error_iff.mp h
  · exact absurd he (hhead e h)
  · exact h

/-- A row that is refused as an OHLC violation has prices out of order, and is named. -/
theorem convertBarRow_order {e : BuildError}
    (h : convertBarRow limits unicode archive columns label row = .error e) (he : e.IsOrder) :
    (∃ problem, e = .row label problem) ∧
      ∃ o h l c, RowPrices columns row o h l c ∧ ¬ InOrder o h l c := by
  unfold convertBarRow at h
  split at h
  · cases h
  · obtain ⟨_, -, h⟩ := order_of_bind (raisesOnly_require id) he h
    obtain ⟨_, -, h⟩ := order_of_bind (cell_raises _ _) he h
    obtain ⟨ts, -, h⟩ := order_of_bind (timestampMs_raises _ _ _) he h
    split at h
    · cases h
    · obtain ⟨openTicks, hopen, h⟩ := order_of_bind (barPrice_raises _ _ _ _ _) he h
      obtain ⟨highTicks, hhigh, h⟩ := order_of_bind (barPrice_raises _ _ _ _ _) he h
      obtain ⟨lowTicks, hlow, h⟩ := order_of_bind (barPrice_raises _ _ _ _ _) he h
      obtain ⟨closeTicks, hclose, h⟩ := order_of_bind (barPrice_raises _ _ _ _ _) he h
      obtain ⟨o, ho, rfl⟩ := barPrice_eq_ok hopen
      obtain ⟨hi, hhi, rfl⟩ := barPrice_eq_ok hhigh
      obtain ⟨l, hl, rfl⟩ := barPrice_eq_ok hlow
      obtain ⟨c, hc, rfl⟩ := barPrice_eq_ok hclose
      refine ⟨?_, o, hi, l, c, ⟨ho, hhi, hl, hc⟩, fun order => ?_⟩
      · obtain h | ⟨_, -, h⟩ := bind_error_iff.mp h
        · exact ⟨_, (require_eq_error.mp h).2.symm⟩
        · obtain h | ⟨_, -, h⟩ := bind_error_iff.mp h
          · exact ⟨_, (require_eq_error.mp h).2.symm⟩
          · obtain ⟨_, -, h⟩ := order_of_bind (barVolume_raises _ _ _) he h
            cases h
      obtain ⟨⟨hlo, hlc⟩, hoh, hch⟩ := order.ticks archive.tickSizeMicro
      rw [require_pos (le_min (le_min hlo hlc) (hlo.trans hoh)), ok_bind,
        require_pos (max_le (max_le hoh hch) (hlo.trans hoh)), ok_bind] at h
      obtain ⟨_, -, h⟩ := order_of_bind (barVolume_raises _ _ _) he h
      cases h

/-- A row that is converted holds its quantised prices. -/
theorem convertBarRow_quantised {record : BarRecord}
    (h : convertBarRow limits unicode archive columns label row = .ok (some record)) :
    Quantised archive.tickSizeMicro columns row record := by
  unfold convertBarRow at h
  split at h
  · cases h
  · obtain ⟨_, -, h⟩ := bind_ok_iff.mp h
    obtain ⟨_, -, h⟩ := bind_ok_iff.mp h
    obtain ⟨ts, -, h⟩ := bind_ok_iff.mp h
    split at h
    · cases h
    · simp only [bind_ok_iff, require_eq_ok, pure_eq_ok, Except.ok.injEq, Option.some.injEq] at h
      obtain ⟨openTicks, hopen, highTicks, hhigh, lowTicks, hlow, closeTicks, hclose, -, hmin, -, hmax,
        volume, -, rfl⟩ := h
      obtain ⟨o, ho, hoTicks⟩ := barPrice_eq_ok hopen
      obtain ⟨hi, hhi, hhTicks⟩ := barPrice_eq_ok hhigh
      obtain ⟨l, hl, hlTicks⟩ := barPrice_eq_ok hlow
      obtain ⟨c, hc, hcTicks⟩ := barPrice_eq_ok hclose
      refine ⟨⟨o, hi, l, c, ⟨ho, hhi, hl, hc⟩, hoTicks, hhTicks, hlTicks, hcTicks⟩, ?_, ?_⟩
      · simpa [and_assoc] using (le_min_iff.mp hmin).1
      · simpa [and_assoc] using (max_le_iff.mp hmax).1

/-! ### All rows -/

/-- Run lemma: every record is that of a row. -/
theorem convertRowsFrom_quantised {index : ℕ} {rows : List (List Text)} {records : List BarRecord}
    (h : convertRowsFrom limits unicode archive columns index rows = .ok records) :
    ∀ record ∈ records, ∃ row ∈ rows, Quantised archive.tickSizeMicro columns row record := by
  induction rows generalizing index records with
  | nil =>
    obtain rfl := Except.ok.inj h
    simp
  | cons row rows ih =>
    obtain ⟨record, hrow, h⟩ := bind_ok_iff.mp h
    obtain ⟨rest, hrest, h⟩ := bind_ok_iff.mp h
    obtain rfl := Except.ok.inj h
    intro found hfound
    rcases List.mem_append.mp hfound with hfirst | hlater
    · obtain rfl := Option.mem_toList.mp hfirst
      exact ⟨row, by simp, convertBarRow_quantised hrow⟩
    · obtain ⟨row', hmem, hquantised⟩ := ih hrest found hlater
      exact ⟨row', List.mem_cons_of_mem _ hmem, hquantised⟩

/-- Run lemma: what is refused as an OHLC violation is a row with prices out of order. -/
theorem convertRowsFrom_order {index : ℕ} {rows : List (List Text)} {e : BuildError}
    (h : convertRowsFrom limits unicode archive columns index rows = .error e) (he : e.IsOrder) :
    ∃ k row problem, rows[k]? = some row ∧ e = .row (archive.label (index + k)) problem ∧
      ∃ o h l c, RowPrices columns row o h l c ∧ ¬ InOrder o h l c := by
  induction rows generalizing index with
  | nil => cases h
  | cons row rows ih =>
    obtain h | ⟨record, -, h⟩ := bind_error_iff.mp h
    · obtain ⟨⟨problem, hlabel⟩, hprices⟩ := convertBarRow_order h he
      exact ⟨0, row, problem, rfl, hlabel, hprices⟩
    · obtain h | ⟨_, -, h⟩ := bind_error_iff.mp h
      · obtain ⟨k, row', problem, hrow, hlabel, hprices⟩ := ih h
        exact ⟨k + 1, row', problem, hrow, by rw [hlabel, Nat.add_right_comm, Nat.add_assoc],
          hprices⟩
      · cases h

theorem headerMap_raises (index : ℕ) (header : List (Text × ℕ)) (row : List Text) :
    RaisesOnly Otherwise (headerMap unicode index header row) := by
  induction row generalizing index header with
  | nil => exact raisesOnly_ok _
  | cons value row ih =>
    unfold headerMap
    dsimp only
    split
    · exact ih _ _
    · exact .bind (raisesOnly_require id) fun _ => ih _ _

theorem headerIndex_raises (header : List (Text × ℕ)) (candidates : List String) :
    RaisesOnly Otherwise (headerIndex unicode header candidates) := by
  unfold headerIndex
  split
  · exact raisesOnly_ok _
  · exact raisesOnly_error id

theorem barColumns_raises (rows : List (List Text)) :
    RaisesOnly Otherwise (barColumns unicode rows) := by
  unfold barColumns
  split
  · exact raisesOnly_error id
  · split
    · exact .bind (headerMap_raises _ _ _) fun _ => .bind (headerIndex_raises _ _) fun _ =>
        .bind (headerIndex_raises _ _) fun _ => .bind (headerIndex_raises _ _) fun _ =>
        .bind (headerIndex_raises _ _) fun _ => .bind (headerIndex_raises _ _) fun _ =>
        .bind (headerIndex_raises _ _) fun _ => raisesOnly_ok _
    · exact raisesOnly_ok _

end Bars

/-! ## Conversion of an archive -/

/-- What the rows of an archive are converted to. -/
structure BarsConverted (limits : Json.Limits) (unicode : Unicode) (archive : BarArchive)
    (rows : List (List Text)) : Prop where
  quantised : ∀ records, convertBarRows limits unicode archive rows = .ok records →
    ∃ start columns, barColumns unicode rows = .ok (start, columns) ∧
      ∀ record ∈ records, ∃ row ∈ rows, Quantised archive.tickSizeMicro columns row record
  order : ∀ e, convertBarRows limits unicode archive rows = .error e → e.IsOrder →
    ∃ start columns, barColumns unicode rows = .ok (start, columns) ∧
      ∃ k row problem, rows[k]? = some row ∧ e = .row (archive.label (k + 1)) problem ∧
        ∃ o h l c, RowPrices columns row o h l c ∧ ¬ InOrder o h l c

theorem barsConverted (limits : Json.Limits) (unicode : Unicode) (archive : BarArchive)
    (rows : List (List Text)) : BarsConverted limits unicode archive rows where
  quantised records h := by
    obtain ⟨⟨start, columns⟩, hcolumns, h⟩ := bind_ok_iff.mp h
    refine ⟨start, columns, hcolumns, fun record hrecord => ?_⟩
    obtain ⟨row, hrow, hquantised⟩ := convertRowsFrom_quantised h record hrecord
    exact ⟨row, List.mem_of_mem_drop hrow, hquantised⟩
  order e h he := by
    obtain ⟨⟨start, columns⟩, hcolumns, h⟩ := order_of_bind (barColumns_raises rows) he h
    obtain ⟨k, row, problem, hrow, hlabel, hprices⟩ := convertRowsFrom_order h he
    refine ⟨start, columns, hcolumns, start + k, row, problem, by rwa [List.getElem?_drop] at hrow, ?_,
      hprices⟩
    rw [hlabel, Nat.add_right_comm]

/-- **Quantisation.** Prices without a minus sign are rounded exactly, amounts are exact or refused, and
rows whose prices are in order stay in order and are never refused as an OHLC violation. -/
theorem archive_quantised (limits : Json.Limits) :
    (∀ value d tick label rounding, strip value = d.text →
      PriceConverted limits value d tick label rounding) ∧
    (∀ value scale label n, scaledDecimal limits value scale label = .ok n →
      ∃ d : DecimalText, strip value = d.text ∧ (n : ℚ) = d.value * scale) ∧
    ∀ unicode archive rows, BarsConverted limits unicode archive rows := by
  refine ⟨fun value d tick label rounding htext => priceConverted htext tick label rounding, ?_,
    barsConverted limits⟩
  intro value scale label n h
  obtain ⟨d, htext, -, hvalue⟩ := scaledDecimal_eq_ok h
  exact ⟨d, htext, hvalue⟩

/-- The decimal text `-1`. -/
def negativeOne : DecimalText where
  sign := some .minus
  whole := txt "1"
  fraction := none
  exponent := none
  whole_ne := by decide
  whole_all := by decide
  fraction_all := by simp

/-- A negative text is no price, though it is a decimal text. -/
theorem negativeOne_refused : strip (txt "-1") = negativeOne.text ∧ negativeOne.value = -1 ∧
    ∀ limits tick label rounding,
      priceTicks limits (txt "-1") tick label rounding = .error (.row label .negative) := by
  have htext : strip (txt "-1") = negativeOne.text := by decide
  have hone : ofDecimal negativeOne.whole = 1 := by decide
  have hzero : negativeOne.fractionDigits = [] := rfl
  refine ⟨htext, ?_, fun limits tick label rounding =>
    (priceConverted htext tick label rounding).negative rfl⟩
  rw [DecimalText.value, if_pos (show negativeOne.sign = some .minus from rfl),
    DecimalText.magnitude, hone, hzero]
  norm_num [ofDecimal, DecimalText.power, negativeOne]

end WagmiBench.Data
