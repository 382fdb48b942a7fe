import CouplingTree.Json.Reader
import CouplingTree.Json.Writer
import CouplingTree.Proofs.Numbers.Decimals
import CouplingTree.Proofs.Text.Numeral

/-!
# Numbers come back

* `readValue_int`, `readValue_double` : what is read of a sign, a whole part, a fraction and an exponent.
* `readValue_plainText`, `readValue_scientificText` : in either form, the digits of a decimal are read as this decimal.
* `readValue_intText`, `readValue_doubleText` : so the text of a number is read as this number.
-/

namespace CouplingTree.Json

open Numeral

variable {w f rest : List Char} (depth fuel : Nat) (negative : Bool)

/-- The digits before a point: a zero alone, or digits that begin with another one. -/
def IsWhole (w : List Char) : Prop := w = ['0'] ∨ w ≠ [] ∧ w.head? ≠ some '0' ∧ ∀ c ∈ w, c.isDigit = true

/-- A sign in front of a number. -/
def signText (negative : Bool) : List Char := if negative then ['-'] else []

theorem IsWhole.isDigit (h : IsWhole w) : ∀ c ∈ w, c.isDigit = true := by
  rcases h with rfl | ⟨-, -, h⟩
  · exact List.all_eq_true.1 (by decide)
  · exact h

theorem IsWhole.ne_nil (h : IsWhole w) : w ≠ [] := by
  rcases h with rfl | ⟨h, -⟩
  · exact List.cons_ne_nil _ _
  · exact h

theorem readMinus_signText (hw : IsWhole w) : readMinus (signText negative ++ (w ++ rest)) = (negative, w ++ rest) := by
  cases negative with
  | true => rfl
  | false =>
    obtain ⟨c, t, rfl⟩ := List.exists_cons_of_ne_nil hw.ne_nil
    rw [signText, if_neg Bool.false_ne_true, List.nil_append, List.cons_append, readMinus]
    rintro _ ⟨⟩
    exact absurd (hw.isDigit '-' (List.mem_cons_self ..)) (by decide)

theorem readWholePart_append (hw : IsWhole w) (hrest : NoDigit rest) : readWholePart (w ++ rest) = (w, rest) := by
  rcases hw with rfl | ⟨hne, hzero, hdigits⟩
  · rfl
  · obtain ⟨c, t, rfl⟩ := List.exists_cons_of_ne_nil hne
    rw [List.cons_append, readWholePart, ← List.cons_append, readDigits_append hdigits hrest]
    rintro _ ⟨⟩
    exact hzero rfl

/-- What begins with digits, or with a minus sign and digits, is read as a number. -/
theorem readValue_whole (hw : IsWhole w) :
    readValue depth (fuel + 1) (signText negative ++ (w ++ rest)) = readNumber (signText negative ++ (w ++ rest)) := by
  obtain ⟨c, t, rfl⟩ := List.exists_cons_of_ne_nil hw.ne_nil
  have hc : c.isDigit = true := hw.isDigit c (List.mem_cons_self ..)
  have hne : ∀ d ∈ ['"', '[', '\x7b', 'n', 't', 'f', 'N', 'I', '-'], c ≠ d := by
    rintro d hd rfl
    have hmarks : (['"', '[', '\x7b', 'n', 't', 'f', 'N', 'I', '-'] : List Char).all (fun d => !d.isDigit) = true := by decide
    exact Bool.false_ne_true (by simpa [hc] using List.all_eq_true.1 hmarks c hd)
  simp only [List.forall_mem_cons] at hne
  cases negative with
  | true =>
    rw [signText, if_pos rfl, List.cons_append, List.nil_append, List.cons_append, readValue, readPlain_minus]
    all_goals simp [hne]
  | false =>
    rw [signText, if_neg Bool.false_ne_true, List.nil_append, List.cons_append, readValue, readPlain_eq_readNumber]
    all_goals simp [hne]

theorem readValue_int (hw : IsWhole w) (hrest : Ends rest) (hlimit : w.length ≤ digitLimit) :
    readValue depth (fuel + 1) (signText negative ++ (w ++ rest)) =
      .ok (.int (if negative then -(number w : Int) else number w), rest) := by
  rw [readValue_whole depth fuel negative hw]
  unfold readNumber
  simp only [readMinus_signText negative hw, readWholePart_append hw hrest.noDigit, readFraction?_of_ends hrest, Option.elim_none,
    readExponent?_of_ends hrest]
  rw [if_neg (by simpa using hw.ne_nil), if_neg (Nat.not_lt.2 hlimit)]

/-- A number with a fraction or an exponent is a double. -/
theorem readValue_double {fraction : Option (List Char × List Char)} {power : Option (Int × List Char)} {tail : List Char}
    (hw : IsWhole w) (htail : NoDigit tail) (hfraction : readFraction? tail = fraction)
    (hpower : readExponent? (fraction.elim tail Prod.snd) = power) (hsome : fraction ≠ none ∨ power ≠ none) :
    readValue depth (fuel + 1) (signText negative ++ (w ++ tail)) =
      .ok (.double (Decimal.toDouble negative ⟨number (w ++ fraction.elim [] Prod.fst),
        power.elim 0 Prod.fst - (fraction.elim [] Prod.fst).length⟩), power.elim (fraction.elim tail Prod.snd) Prod.snd) := by
  rw [readValue_whole depth fuel negative hw]
  unfold readNumber
  simp only [readMinus_signText negative hw, readWholePart_append hw htail, hfraction, hpower]
  rw [if_neg (by simpa using hw.ne_nil)]
  split
  · simp at hsome
  · rfl

theorem readValue_fraction (hw : IsWhole w) (hf : ∀ c ∈ f, c.isDigit = true) (hne : f ≠ []) (hrest : Ends rest) :
    readValue depth (fuel + 1) (signText negative ++ (w ++ '.' :: (f ++ rest))) =
      .ok (.double (Decimal.toDouble negative ⟨number (w ++ f), -(f.length : Int)⟩), rest) := by
  have hread := readFraction?_point hf hne hrest.noDigit
  rw [readValue_double depth fuel negative hw (noDigit_cons rfl) hread (readExponent?_of_ends hrest)
    (Or.inl (Option.some_ne_none _))]
  simp

/-- The digits behind a point, which is left out if there are none. -/
def fractionText (f : List Char) : List Char := if f = [] then [] else '.' :: f

theorem readValue_power (descends : Bool) {ds : List Char} (hw : IsWhole w) (hf : ∀ c ∈ f, c.isDigit = true)
    (hds : ∀ c ∈ ds, c.isDigit = true) (hne : ds ≠ []) (hrest : Ends rest) :
    readValue depth (fuel + 1) (signText negative ++ (w ++ (fractionText f ++ (powerText descends ds ++ rest)))) =
      .ok (.double (Decimal.toDouble negative
        ⟨number (w ++ f), (if descends then -(number ds : Int) else number ds) - f.length⟩), rest) := by
  have hpower := readExponent?_power descends hds hne hrest.noDigit
  have hend : NoDigit (powerText descends ds ++ rest) := noDigit_cons rfl
  by_cases h : f = []
  · subst h
    have hnone : fractionText [] ++ (powerText descends ds ++ rest) = powerText descends ds ++ rest := rfl
    rw [hnone, readValue_double depth fuel negative hw hend rfl hpower (Or.inr (Option.some_ne_none _))]
    rfl
  · have hread : readFraction? (fractionText f ++ (powerText descends ds ++ rest)) = some (f, powerText descends ds ++ rest) := by
      rw [fractionText, if_neg h]
      exact readFraction?_point hf h hend
    have htail : NoDigit (fractionText f ++ (powerText descends ds ++ rest)) := by
      rw [fractionText, if_neg h]
      exact noDigit_cons rfl
    rw [readValue_double depth fuel negative hw htail hread hpower (Or.inl (Option.some_ne_none _))]
    rfl

/-! ## Doubles -/

variable {d : Decimal}

/-- The digits of a number may have zeros behind them. -/
theorem isWhole_toDigits_append {n : Nat} (hn : 0 < n) (k : Nat) : IsWhole (Nat.toDigits 10 n ++ List.replicate k '0') := by
  refine Or.inr ⟨List.append_ne_nil_of_left_ne_nil Nat.toDigits_ne_nil _, ?_, fun c hc => ?_⟩
  · rw [List.head?_append, List.head?_eq_some_head Nat.toDigits_ne_nil, Option.some_or, ← List.head?_eq_some_head]
    exact head?_toDigits hn
  · exact (List.mem_append.1 hc).elim (isDigit_toDigits n c) (isDigit_replicate_zero k c)

theorem isWhole_take_toDigits {n k : Nat} (hn : 0 < n) (hk : k ≠ 0) : IsWhole ((Nat.toDigits 10 n).take k) := by
  refine Or.inr ⟨?_, ?_, fun c hc => isDigit_toDigits n c (List.mem_of_mem_take hc)⟩
  · simp [hk, Nat.toDigits_ne_nil]
  · rw [List.head?_take, if_neg hk]
    exact head?_toDigits hn

/-- The power of ten of the leading digit. -/
def lead (d : Decimal) : Int := d.exponent + (Nat.toDigits 10 d.digits).length - 1

/-- Zeros stand between the point and the digits. -/
theorem readValue_pointBefore (hrest : Ends rest) (hneg : lead d < 0) :
    readValue depth (fuel + 1) (signText negative ++
      ('0' :: '.' :: (List.replicate (-lead d - 1).toNat '0' ++ Nat.toDigits 10 d.digits) ++ rest)) =
        .ok (.double (d.toDouble negative), rest) := by
  have hdigits := number_toDigits d.digits
  have hall := isDigit_toDigits d.digits
  have hne : Nat.toDigits 10 d.digits ≠ [] := Nat.toDigits_ne_nil
  have hlead : lead d = d.exponent + (Nat.toDigits 10 d.digits).length - 1 := rfl
  generalize Nat.toDigits 10 d.digits = ds at *
  have hf : ∀ c ∈ List.replicate (-lead d - 1).toNat '0' ++ ds, c.isDigit = true := fun c hc =>
    (List.mem_append.1 hc).elim (isDigit_replicate_zero _ c) (hall c)
  have hread := readValue_fraction depth fuel negative (Or.inl rfl) hf (List.append_ne_nil_of_right_ne_nil _ hne) hrest
  have hnumber : number (['0'] ++ (List.replicate (-lead d - 1).toNat '0' ++ ds)) = d.digits := by
    have hzero : number ['0'] = 0 := rfl
    rw [number_append, number_append, number_replicate_zero, hzero, hdigits, Nat.zero_mul, Nat.zero_mul, Nat.zero_add,
      Nat.zero_add]
  have hexponent : -((List.replicate (-lead d - 1).toNat '0' ++ ds).length : Int) = d.exponent := by
    rw [List.length_append, List.length_replicate]
    omega
  rw [hnumber, hexponent] at hread
  exact hread

/-- Zeros stand between the digits and the point, and one behind it. -/
theorem readValue_pointBehind (hd : 0 < d.digits) (hrest : Ends rest) {k : Nat} (hk : d.exponent = k) :
    readValue depth (fuel + 1) (signText negative ++
      (Nat.toDigits 10 d.digits ++ List.replicate k '0' ++ ['.', '0'] ++ rest)) = .ok (.double (d.toDouble negative), rest) := by
  have hread := readValue_fraction depth fuel negative (f := ['0']) (isWhole_toDigits_append hd k)
    (List.all_eq_true.1 (by decide)) (List.cons_ne_nil _ _) hrest
  have hvalue : Decimal.value ⟨number (Nat.toDigits 10 d.digits ++ List.replicate k '0' ++ ['0']),
      -((['0'] : List Char).length : Int)⟩ = d.value := by
    have hone : number ['0'] = 0 := rfl
    rw [number_append, number_append, number_replicate_zero, hone, number_toDigits, List.length_replicate, Decimal.value,
      Decimal.value, hk]
    simp
  rw [Decimal.toDouble_congr hvalue] at hread
  rw [List.append_assoc]
  exact hread

/-- The point stands between the digits. -/
theorem readValue_pointBetween (hd : 0 < d.digits) (hrest : Ends rest) {k : Nat} (hk : k ≠ 0)
    (hlt : k < (Nat.toDigits 10 d.digits).length) (hexponent : d.exponent = k - ((Nat.toDigits 10 d.digits).length : Int)) :
    readValue depth (fuel + 1) (signText negative ++
      ((Nat.toDigits 10 d.digits).take k ++ '.' :: (Nat.toDigits 10 d.digits).drop k ++ rest)) =
        .ok (.double (d.toDouble negative), rest) := by
  have hf : ∀ c ∈ (Nat.toDigits 10 d.digits).drop k, c.isDigit = true := fun c hc =>
    isDigit_toDigits d.digits c (List.mem_of_mem_drop hc)
  have hread := readValue_fraction depth fuel negative (isWhole_take_toDigits hd hk) hf (by simpa using hlt) hrest
  have hlength : -(((Nat.toDigits 10 d.digits).drop k).length : Int) = d.exponent := by
    rw [List.length_drop]
    omega
  rw [List.take_append_drop, number_toDigits, hlength] at hread
  rw [List.append_assoc]
  exact hread

theorem readValue_plainText (hd : 0 < d.digits) (hrest : Ends rest) :
    readValue depth (fuel + 1) (signText negative ++ (CouplingTree.plainText (Nat.toDigits 10 d.digits) (lead d) ++ rest)) =
      .ok (.double (d.toDouble negative), rest) := by
  have hlead : lead d = d.exponent + (Nat.toDigits 10 d.digits).length - 1 := rfl
  unfold CouplingTree.plainText
  split
  · next hneg => exact readValue_pointBefore depth fuel negative hrest hneg
  next hlead0 =>
  dsimp only
  split
  · next hlen => exact readValue_pointBehind depth fuel negative hd hrest (by omega)
  · next hlen => exact readValue_pointBetween depth fuel negative hd hrest (Nat.succ_ne_zero _) (Nat.lt_of_not_le hlen) (by omega)

theorem readValue_scientificText (hd : 0 < d.digits) (hrest : Ends rest) :
    readValue depth (fuel + 1) (signText negative ++ (scientificText (Nat.toDigits 10 d.digits) (lead d) ++ rest)) =
      .ok (.double (d.toDouble negative), rest) := by
  have hdigits := number_toDigits d.digits
  have hall := isDigit_toDigits d.digits
  have hlead : lead d = d.exponent + (Nat.toDigits 10 d.digits).length - 1 := rfl
  have hwhole := isWhole_take_toDigits hd one_ne_zero
  have hlength : 0 < (Nat.toDigits 10 d.digits).length := Nat.length_toDigits_pos
  generalize Nat.toDigits 10 d.digits = ds at *
  have hf : ∀ c ∈ ds.drop 1, c.isDigit = true := fun c hc => hall c (List.mem_of_mem_drop hc)
  have hread := readValue_power depth fuel negative (decide (lead d < 0)) hwhole hf
    (isDigit_digitsText 2 (lead d).natAbs) (digitsText_ne_nil _ _) hrest
  have hexponent : (if decide (lead d < 0) = true then -(number (digitsText 2 (lead d).natAbs) : Int)
      else number (digitsText 2 (lead d).natAbs)) - (ds.drop 1).length = d.exponent := by
    rw [number_digitsText, List.length_drop]
    simp only [decide_eq_true_eq]
    split <;> omega
  rw [List.take_append_drop, hdigits, hexponent] at hread
  have htext : scientificText ds (lead d) ++ rest =
      ds.take 1 ++ (fractionText (ds.drop 1) ++ (powerText (decide (lead d < 0)) (digitsText 2 (lead d).natAbs) ++ rest)) := by
    have hnone : 1 < ds.length ↔ ¬ds.drop 1 = [] := by rw [List.drop_eq_nil_iff, Nat.not_le]
    have hfraction : (if 1 < ds.length then '.' :: ds.drop 1 else []) = fractionText (ds.drop 1) := by
      rw [fractionText, if_congr hnone rfl rfl, ite_not]
    rw [scientificText, hfraction]
    simp [powerText]
  rw [htext]
  exact hread

/-- The digits of a finite double are read as this double. -/
theorem readValue_magnitude (style : DoubleStyle) {m : Nat} {e : Int}
    (hm : m ≠ 0 → Binary64.nearestBits (Binary64.quotient m e).1 (Binary64.quotient m e).2 ≠ 0) (hrest : Ends rest) :
    readValue depth (fuel + 1) (signText negative ++ (style.magnitude m e ++ rest)) =
      .ok (.double (Binary64.nearest negative (Binary64.quotient m e).1 (Binary64.quotient m e).2), rest) := by
  unfold DoubleStyle.magnitude
  split
  · next hzero =>
    subst hzero
    have hread := readValue_fraction depth fuel negative (f := ['0']) (Or.inl rfl) (List.all_eq_true.1 (by decide))
      (List.cons_ne_nil _ _) hrest
    have hnumber : number (['0'] ++ ['0']) = 0 := rfl
    have hquotient : (Binary64.quotient 0 e).1 = 0 := Nat.zero_mul _
    rw [hnumber, Decimal.toDouble, if_pos (Or.inl rfl)] at hread
    have hbits : Binary64.nearestBits 0 1 = Binary64.nearestBits (Binary64.quotient 0 e).1 (Binary64.quotient 0 e).2 := by
      rw [hquotient, Binary64.nearestBits_zero, Binary64.nearestBits_zero]
    rw [Binary64.nearest_congr hbits] at hread
    exact hread
  · next hpos =>
    have hd := Decimal.shortest_digits_pos (hm hpos)
    rw [← Decimal.toDouble_shortest]
    dsimp only
    split
    · exact readValue_plainText depth fuel negative hd hrest
    · exact readValue_scientificText depth fuel negative hd hrest

/-! ## The texts of numbers -/

theorem plainText_int (i : Int) : plainText (.int i) = signText (decide (i < 0)) ++ Nat.toDigits 10 i.natAbs := by
  have hnat : ∀ n : Nat, (Nat.repr n).toList = Nat.toDigits 10 n := fun n => Nat.toList_repr
  rw [plainText, Int.toString_eq_repr]
  cases i with
  | ofNat n =>
    have hn : ¬Int.ofNat n < 0 := Int.not_lt.2 (Int.natCast_nonneg n)
    rw [Int.repr, hnat, decide_eq_false hn]
    rfl
  | negSucc n =>
    rw [Int.repr, String.toList_append, hnat, decide_eq_true (Int.negSucc_lt_zero n)]
    rfl

theorem readValue_intText (i : Int) (h : (Nat.toDigits 10 i.natAbs).length ≤ digitLimit) (hrest : Ends rest) :
    readValue depth (fuel + 1) (plainText (.int i) ++ rest) = .ok (.int i, rest) := by
  have hwhole : IsWhole (Nat.toDigits 10 i.natAbs) := by
    rcases i.natAbs.eq_zero_or_pos with hzero | hpos
    · exact Or.inl (by rw [hzero]; rfl)
    · simpa using isWhole_toDigits_append hpos 0
  rw [plainText_int, List.append_assoc, readValue_int depth fuel _ hwhole hrest h, number_toDigits]
  congr 3
  by_cases hi : i < 0
  · rw [decide_eq_true hi, if_pos rfl]
    omega
  · rw [decide_eq_false hi, if_neg Bool.false_ne_true]
    omega

theorem readValue_doubleText (x : Float) (hrest : Ends rest) :
    readValue depth (fuel + 1) (plainText (.double x) ++ rest) = .ok (.double x, rest) := by
  rw [plainText, DoubleStyle.text]
  split
  · next h =>
    rw [Doubles.eq_notANumber_of_value h]
    rfl
  · next negative h =>
    rw [Doubles.eq_infinity_of_value h]
    cases negative <;> rfl
  · next negative m e h =>
    obtain ⟨hnormal, -, -⟩ := Doubles.bits_of_value h
    have hm : m ≠ 0 → Binary64.nearestBits (Binary64.quotient m e).1 (Binary64.quotient m e).2 ≠ 0 := fun hm => by
      rw [Binary64.nearestBits_quotient hnormal, Binary64.bitsOf]
      have hpos : 0 < Binary64.infinityBits := by decide
      omega
    have hread := readValue_magnitude depth fuel negative DoubleStyle.json hm hrest
    rw [← Doubles.eq_nearest_of_value h, ← List.append_assoc] at hread
    rw [String.toList_ofList]
    exact hread

end CouplingTree.Json
