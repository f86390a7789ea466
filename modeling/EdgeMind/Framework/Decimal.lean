import EdgeMind.Framework.Bytes
import Mathlib.Data.Nat.Digits.Lemmas

/-!
# Decimal numerals

Printing of integers as an output stream does it, and the C conversions `strtoull` and
`strtoll` with their white space, sign, end pointer and range error. A strict parser accepts a
string only when the conversion consumed all of it without a range error; printed numbers are
read back exactly, and a numeral of the format is told from what else the conversions accept by its
first character.
-/

namespace EdgeMind.Framework

/-- Decimal digits of a natural number, most significant first. -/
def decimal (n : Nat) : Bytes :=
  if n = 0 then [48] else (Nat.digits 10 n).reverse.map digitByte

def intDecimal (z : Int) : Bytes :=
  if z < 0 then 45 :: decimal z.natAbs else decimal z.natAbs

def digitsValue (ds : Bytes) : Nat := ds.foldl (fun acc b => acc * 10 + (b.toNat - 48)) 0

private theorem digitsValue_append (xs : Bytes) (b : UInt8) :
    digitsValue (xs ++ [b]) = digitsValue xs * 10 + (b.toNat - 48) := by
  simp [digitsValue, List.foldl_append]

private theorem digitsValue_map (ds : List Nat) (h : ∀ d ∈ ds, d < 10) :
    digitsValue (ds.reverse.map digitByte) = Nat.ofDigits 10 ds := by
  induction ds with
  | nil => rfl
  | cons d ds ih =>
      have hd : d < 10 := h d (by simp)
      rw [List.reverse_cons, List.map_append, List.map_singleton, digitsValue_append,
        ih (fun e he => h e (by simp [he])), digitByte_toNat hd, Nat.ofDigits_cons]
      omega

theorem digitsValue_decimal (n : Nat) : digitsValue (decimal n) = n := by
  by_cases hn : n = 0
  · subst n; rfl
  · rw [decimal, if_neg hn, digitsValue_map _ (fun d hd => Nat.digits_lt_base (by decide) hd),
      Nat.ofDigits_digits]

theorem decimal_ne_nil (n : Nat) : decimal n ≠ [] := by
  by_cases hn : n = 0
  · simp [decimal, hn]
  · simp [decimal, hn, Nat.digits_ne_nil_iff_ne_zero]

theorem decimal_isDigit (n : Nat) : ∀ b ∈ decimal n, isDigit b = true := by
  intro b hb
  by_cases hn : n = 0
  · simp only [decimal, hn, if_true, List.mem_singleton] at hb
    subst b; rfl
  · rw [decimal, if_neg hn] at hb
    obtain ⟨d, hd, rfl⟩ := List.mem_map.mp hb
    exact isDigit_digitByte (Nat.digits_lt_base (by decide) (List.mem_reverse.mp hd))

theorem newline_notMem_decimal (n : Nat) : (10 : UInt8) ∉ decimal n := by
  intro h
  exact absurd (decimal_isDigit n 10 h) (by decide)

theorem newline_notMem_intDecimal (z : Int) : (10 : UInt8) ∉ intDecimal z := by
  unfold intDecimal
  split
  · rw [List.mem_cons, not_or]
    exact ⟨by decide, newline_notMem_decimal _⟩
  · exact newline_notMem_decimal _

theorem decimal_injective {m n : Nat} (h : decimal m = decimal n) : m = n := by
  rw [← digitsValue_decimal m, h, digitsValue_decimal]

theorem decimal_concat {n : Nat} (h : 10 ≤ n) :
    decimal n = decimal (n / 10) ++ [digitByte (n % 10)] := by
  have hdigits := Nat.digits_def' (b := 10) (by decide) (show 0 < n by omega)
  rw [decimal, if_neg (by omega), decimal, if_neg (by omega), hdigits, List.reverse_cons,
    List.map_append]
  rfl

/-- A numeral that is cut off is the one of a number without its last digits, which is positive if the
number was. -/
theorem decimal_prefix {n : Nat} {kept : Bytes} (hkept : kept <+: decimal n) (hne : kept ≠ []) :
    ∃ k, kept = decimal (n / 10 ^ k) ∧ (0 < n → 0 < n / 10 ^ k) := by
  induction n using Nat.strong_induction_on with
  | h n ih =>
      by_cases hn : 10 ≤ n
      · rw [decimal_concat hn, List.prefix_concat_iff, ← decimal_concat hn] at hkept
        rcases hkept with rfl | hkept
        · exact ⟨0, by simp, by simp⟩
        · obtain ⟨k, heq, hpos⟩ := ih (n / 10) (by omega) hkept
          rw [Nat.div_div_eq_div_mul, ← Nat.pow_succ'] at heq hpos
          exact ⟨k + 1, heq, fun _ => hpos (by omega)⟩
      · have hlength : (decimal n).length = 1 := by
          unfold decimal
          split
          · rfl
          · rw [Nat.digits_of_lt 10 n (by omega) (by omega)]
            rfl
        have hone : 1 ≤ kept.length := List.length_pos_iff.mpr hne
        have heq := hkept.eq_of_length (by have := hkept.length_le; omega)
        exact ⟨0, by simpa using heq, by simp⟩

/-- The characters `isspace` accepts in the C locale. -/
def isSpace (b : UInt8) : Bool := b = 32 || (9 ≤ b && b ≤ 13)

/-- Optional sign of a numeral: whether it is negative, and what follows it. -/
def signSplit : Bytes → Bool × Bytes
  | 45 :: bs => (true, bs)
  | 43 :: bs => (false, bs)
  | bs => (false, bs)

/-- What a C conversion reports: value, `errno == ERANGE`, and the text at its end pointer. -/
structure Conversion (α : Type) where
  value : α
  erange : Bool
  rest : Bytes
deriving DecidableEq

/-- `strtoull` in base ten: a minus sign negates modulo `2^64`. -/
def strtoull (s : Bytes) : Conversion Nat :=
  let (neg, u) := signSplit (s.dropWhile isSpace)
  let ds := u.takeWhile isDigit
  let m := digitsValue ds
  if ds = [] then ⟨0, false, s⟩
  else if 2 ^ 64 ≤ m then ⟨2 ^ 64 - 1, true, u.dropWhile isDigit⟩
  else ⟨if neg then (2 ^ 64 - m) % 2 ^ 64 else m, false, u.dropWhile isDigit⟩

/-- `strtoll` in base ten. -/
def strtoll (s : Bytes) : Conversion Int :=
  let (neg, u) := signSplit (s.dropWhile isSpace)
  let ds := u.takeWhile isDigit
  let z : Int := if neg then -(digitsValue ds : Int) else digitsValue ds
  if ds = [] then ⟨0, false, s⟩
  else if z < -2 ^ 63 then ⟨-2 ^ 63, true, u.dropWhile isDigit⟩
  else if 2 ^ 63 ≤ z then ⟨2 ^ 63 - 1, true, u.dropWhile isDigit⟩
  else ⟨z, false, u.dropWhile isDigit⟩

/-- Keep a conversion only if it consumed all of a non-empty string without a range error. -/
def strictly {α : Type} (conv : Bytes → Conversion α) (s : Bytes) : Option α :=
  if s = [] then none
  else if (conv s).rest ≠ [] ∨ (conv s).erange = true then none
  else some (conv s).value

private theorem takeWhile_digits {ds rest : Bytes} (h : ∀ b ∈ ds, isDigit b = true)
    (hr : ∀ b ∈ rest.head?, isDigit b = false) :
    (ds ++ rest).takeWhile isDigit = ds ∧ (ds ++ rest).dropWhile isDigit = rest := by
  induction ds with
  | nil =>
      cases rest with
      | nil => simp
      | cons b bs =>
          have hb : isDigit b = false := hr b (by simp)
          simp [hb]
  | cons d ds ih =>
      have hd := h d (by simp)
      have ht := ih (fun b hb => h b (by simp [hb]))
      simp [hd, ht]

theorem decimal_append_inj {m n : Nat} {u v : Bytes}
    (hu : ∀ b ∈ u.head?, isDigit b = false) (hv : ∀ b ∈ v.head?, isDigit b = false)
    (h : decimal m ++ u = decimal n ++ v) : m = n ∧ u = v := by
  have hm := takeWhile_digits (decimal_isDigit m) hu
  have hn := takeWhile_digits (decimal_isDigit n) hv
  rw [h] at hm
  exact ⟨decimal_injective (hm.1.symm.trans hn.1), hm.2.symm.trans hn.2⟩

private theorem digit_not_minus {b : UInt8} (h : isDigit b = true) : b ≠ 45 := by
  rintro rfl; exact absurd h (by decide)

theorem intDecimal_append_inj {y z : Int} {u v : Bytes}
    (hu : ∀ b ∈ u.head?, isDigit b = false) (hv : ∀ b ∈ v.head?, isDigit b = false)
    (h : intDecimal y ++ u = intDecimal z ++ v) : y = z ∧ u = v := by
  have hhead (n : Nat) (w t : Bytes) : decimal n ++ w ≠ 45 :: t := by
    intro he
    cases hd : decimal n with
    | nil => exact decimal_ne_nil n hd
    | cons b bs =>
        rw [hd] at he
        exact digit_not_minus (decimal_isDigit n b (by simp [hd])) (List.cons.inj he).1
  unfold intDecimal at h
  by_cases hy : y < 0 <;> by_cases hz : z < 0 <;> simp only [hy, hz, if_true, if_false] at h
  · have ⟨he, hr⟩ := decimal_append_inj hu hv (List.cons.inj h).2
    exact ⟨by omega, hr⟩
  · exact absurd h.symm (hhead _ _ _)
  · exact absurd h (hhead _ _ _)
  · have ⟨he, hr⟩ := decimal_append_inj hu hv h
    exact ⟨by omega, hr⟩

theorem intDecimal_append_ne {z : Int} {u t : Bytes} {b : UInt8} (hb : isDigit b = false)
    (hminus : b ≠ 45) : intDecimal z ++ u ≠ b :: t := by
  intro h
  unfold intDecimal at h
  split at h
  · exact hminus (List.cons.inj h).1.symm
  · cases hd : decimal z.natAbs with
    | nil => exact decimal_ne_nil _ hd
    | cons c cs =>
        rw [hd] at h
        have hc := decimal_isDigit z.natAbs c (by simp [hd])
        rw [(List.cons.inj h).1, hb] at hc
        cases hc

theorem digit_not_space {b : UInt8} (h : isDigit b = true) : isSpace b = false := by
  rw [isDigit_iff] at h
  simp only [isSpace, Bool.or_eq_false_iff, decide_eq_false_iff_not, Bool.and_eq_false_iff,
    UInt8.le_iff_toNat_le]
  refine ⟨?_, Or.inr ?_⟩
  · rintro rfl; revert h; decide
  · change ¬ b.toNat ≤ 13
    omega

private theorem signSplit_digit {b : UInt8} {bs : Bytes} (h : isDigit b = true) :
    signSplit (b :: bs) = (false, b :: bs) := by
  unfold signSplit
  split
  · rename_i he; injection he with hb _; subst hb; exact absurd h (by decide)
  · rename_i he; injection he with hb _; subst hb; exact absurd h (by decide)
  · rfl

private theorem scan_decimal (n : Nat) :
    signSplit ((decimal n).dropWhile isSpace) = (false, decimal n) ∧
      (decimal n).takeWhile isDigit = decimal n ∧ (decimal n).dropWhile isDigit = [] := by
  have hw := @takeWhile_digits (decimal n) [] (decimal_isDigit n) (by simp)
  rw [List.append_nil] at hw
  refine ⟨?_, hw⟩
  cases hd : decimal n with
  | nil => exact absurd hd (decimal_ne_nil n)
  | cons b bs =>
      have hb : isDigit b = true := decimal_isDigit n b (by simp [hd])
      rw [List.dropWhile_cons_of_neg (by simp [digit_not_space hb]), signSplit_digit hb]

theorem strictly_strtoull_decimal (n : Nat) (h : n < 2 ^ 64) :
    strictly strtoull (decimal n) = some n := by
  obtain ⟨hs, ht, hr⟩ := scan_decimal n
  have hc : strtoull (decimal n) = ⟨n, false, []⟩ := by
    simp only [strtoull, hs, ht, hr, digitsValue_decimal, decimal_ne_nil, if_false,
      Nat.not_le.mpr h, Bool.false_eq_true]
  simp [strictly, hc, decimal_ne_nil]

theorem strictly_strtoll_intDecimal (z : Int) (hlo : -2 ^ 63 ≤ z) (hhi : z < 2 ^ 63) :
    strictly strtoll (intDecimal z) = some z := by
  obtain ⟨hs, ht, hr⟩ := scan_decimal z.natAbs
  have hc : strtoll (intDecimal z) = ⟨z, false, []⟩ := by
    by_cases hz : z < 0
    · have he : -(z.natAbs : Int) = z := by omega
      have hd : (45 :: decimal z.natAbs).dropWhile isSpace = 45 :: decimal z.natAbs := rfl
      simp only [strtoll, intDecimal, hz, if_true, hd, signSplit, ht, hr, digitsValue_decimal,
        decimal_ne_nil, if_false, he, not_lt.mpr hlo, not_le.mpr hhi]
    · have he : (z.natAbs : Int) = z := by omega
      simp only [strtoll, intDecimal, hz, if_false, hs, ht, hr, digitsValue_decimal,
        decimal_ne_nil, Bool.false_eq_true, he, not_lt.mpr hlo, not_le.mpr hhi]
  have hne : intDecimal z ≠ [] := by
    unfold intDecimal
    split <;> simp [decimal_ne_nil]
  simp [strictly, hc, hne]

theorem strtoll_append (negative : Bool) (n : Nat) {rest : Bytes}
    (hrest : ∀ b ∈ rest.head?, isDigit b = false) :
    strtoll ((if negative then [45] else []) ++ decimal n ++ rest) =
      if (if negative then -(n : Int) else n) < -2 ^ 63 then ⟨-2 ^ 63, true, rest⟩
      else if 2 ^ 63 ≤ (if negative then -(n : Int) else n) then ⟨2 ^ 63 - 1, true, rest⟩
      else ⟨if negative then -(n : Int) else n, false, rest⟩ := by
  have hscan := takeWhile_digits (decimal_isDigit n) hrest
  have hsplit : signSplit (((if negative then [45] else []) ++ decimal n ++ rest).dropWhile isSpace) =
      (negative, decimal n ++ rest) := by
    cases negative with
    | true => rfl
    | false =>
        obtain ⟨b, bs, hd⟩ := List.exists_cons_of_ne_nil (decimal_ne_nil n)
        have hb : isDigit b = true := decimal_isDigit n b (by simp [hd])
        simp only [Bool.false_eq_true, if_false, List.nil_append, hd, List.cons_append]
        rw [List.dropWhile_cons_of_neg (by simp [digit_not_space hb]), signSplit_digit hb]
  simp only [strtoll, hsplit, hscan.1, hscan.2, if_neg (decimal_ne_nil n), digitsValue_decimal]

/-- Digits, behind a minus sign where the numbers are signed, and what they denote. -/
inductive Denotes (signed : Bool) : Bytes → Int → Prop
  | plain {ds : Bytes} (hne : ds ≠ []) (hdigits : ∀ b ∈ ds, isDigit b = true) :
      Denotes signed ds (digitsValue ds)
  | minus {ds : Bytes} (hsigned : signed = true) (hne : ds ≠ [])
      (hdigits : ∀ b ∈ ds, isDigit b = true) : Denotes signed (45 :: ds) (-(digitsValue ds : Int))

/-- White space, a plus sign, or a minus sign where the numbers are not signed: the conversions pass
over it. -/
def lenientStart (signed : Bool) : Bytes → Bool
  | [] => false
  | b :: _ => isSpace b || b = 43 || (b = 45 && !signed)

private theorem all_of_dropWhile {p : UInt8 → Bool} {s : Bytes} (h : s.dropWhile p = []) :
    s.takeWhile p = s ∧ ∀ b ∈ s, p b = true := by
  have hsplit := List.takeWhile_append_dropWhile (p := p) (l := s)
  rw [h, List.append_nil] at hsplit
  have hall : (s.takeWhile p).all p = true := List.all_takeWhile
  rw [hsplit, List.all_eq_true] at hall
  exact ⟨hsplit, hall⟩

private theorem strictly_eq_some {α : Type} {conv : Bytes → Conversion α} {s : Bytes} {a : α}
    (h : strictly conv s = some a) :
    s ≠ [] ∧ (conv s).rest = [] ∧ (conv s).erange = false ∧ (conv s).value = a := by
  unfold strictly at h
  split at h
  · cases h
  · next hne =>
      split at h
      · cases h
      · next hconv =>
          rw [not_or, not_not, Bool.not_eq_true] at hconv
          exact ⟨hne, hconv.1, hconv.2, Option.some.inj h⟩

theorem strictly_strtoll_scan {s : Bytes} {z : Int} (h : strictly strtoll s = some z) :
    ∃ neg u, signSplit (s.dropWhile isSpace) = (neg, u) ∧ u ≠ [] ∧ (∀ b ∈ u, isDigit b = true) ∧
      z = (if neg then -(digitsValue u : Int) else digitsValue u) ∧ -2 ^ 63 ≤ z ∧ z < 2 ^ 63 := by
  obtain ⟨hne, hrest, herange, hvalue⟩ := strictly_eq_some h
  cases hsplit : signSplit (s.dropWhile isSpace) with
  | mk neg u =>
      simp only [strtoll, hsplit] at hrest herange hvalue
      by_cases hds : u.takeWhile isDigit = []
      · rw [if_pos hds] at hrest
        exact absurd hrest hne
      rw [if_neg hds] at hrest herange hvalue
      generalize hz : (if neg = true then -(digitsValue (u.takeWhile isDigit) : Int)
        else digitsValue (u.takeWhile isDigit)) = z' at hrest herange hvalue
      by_cases hlow : z' < -2 ^ 63
      · rw [if_pos hlow] at herange
        cases herange
      rw [if_neg hlow] at hrest herange hvalue
      by_cases hhigh : 2 ^ 63 ≤ z'
      · rw [if_pos hhigh] at herange
        cases herange
      rw [if_neg hhigh] at hrest hvalue
      obtain ⟨htake, hdigits⟩ := all_of_dropWhile hrest
      rw [htake] at hds hz
      subst hvalue
      exact ⟨neg, u, rfl, hds, hdigits, hz.symm, not_lt.mp hlow, not_le.mp hhigh⟩

theorem strictly_strtoull_scan {s : Bytes} {n : Nat} (h : strictly strtoull s = some n) :
    ∃ neg u, signSplit (s.dropWhile isSpace) = (neg, u) ∧ u ≠ [] ∧ (∀ b ∈ u, isDigit b = true) ∧
      n = (if neg then (2 ^ 64 - digitsValue u) % 2 ^ 64 else digitsValue u) ∧
        digitsValue u < 2 ^ 64 := by
  obtain ⟨hne, hrest, herange, hvalue⟩ := strictly_eq_some h
  cases hsplit : signSplit (s.dropWhile isSpace) with
  | mk neg u =>
      simp only [strtoull, hsplit] at hrest herange hvalue
      by_cases hds : u.takeWhile isDigit = []
      · rw [if_pos hds] at hrest
        exact absurd hrest hne
      rw [if_neg hds] at hrest herange hvalue
      by_cases hhigh : 2 ^ 64 ≤ digitsValue (u.takeWhile isDigit)
      · rw [if_pos hhigh] at herange
        cases herange
      rw [if_neg hhigh] at hrest hvalue
      obtain ⟨htake, hdigits⟩ := all_of_dropWhile hrest
      rw [htake] at hds hvalue hhigh
      exact ⟨neg, u, rfl, hds, hdigits, hvalue.symm, not_le.mp hhigh⟩

private theorem lenientStart_digits {signed : Bool} {ds : Bytes}
    (h : ∀ b ∈ ds, isDigit b = true) : lenientStart signed ds = false := by
  cases ds with
  | nil => rfl
  | cons b bs =>
      have hb := h b List.mem_cons_self
      have hplus : b ≠ 43 := by
        intro heq
        subst heq
        cases hb
      simp [lenientStart, digit_not_space hb, digit_not_minus hb, hplus]

theorem Denotes.start {signed : Bool} {s : Bytes} {z : Int} (h : Denotes signed s z) :
    lenientStart signed s = false := by
  cases h with
  | plain _ hdigits => exact lenientStart_digits hdigits
  | minus hsigned _ _ =>
      subst hsigned
      rfl

private theorem signSplit_strict {signed : Bool} {s u : Bytes} {neg : Bool}
    (hstart : lenientStart signed s = false)
    (hsplit : signSplit (s.dropWhile isSpace) = (neg, u)) :
    (neg = false ∧ s = u) ∨ (signed = true ∧ neg = true ∧ s = 45 :: u) := by
  cases s with
  | nil =>
      cases hsplit
      exact .inl ⟨rfl, rfl⟩
  | cons b bs =>
      simp only [lenientStart, Bool.or_eq_false_iff, Bool.and_eq_false_iff, decide_eq_false_iff_not,
        Bool.not_eq_false'] at hstart
      obtain ⟨⟨hspace, hplus⟩, hminus⟩ := hstart
      rw [List.dropWhile_cons_of_neg (by rw [hspace]; exact Bool.false_ne_true)] at hsplit
      unfold signSplit at hsplit
      split at hsplit
      · next heq =>
          cases heq
          cases hsplit
          exact .inr ⟨hminus.resolve_left fun h => h rfl, rfl, rfl⟩
      · next heq =>
          cases heq
          exact absurd rfl hplus
      · cases hsplit
        exact .inl ⟨rfl, rfl⟩

theorem strictly_strtoll_denotes {s : Bytes} {z : Int} (h : strictly strtoll s = some z) :
    Denotes true s z ↔ lenientStart true s = false := by
  refine ⟨Denotes.start, fun hstart => ?_⟩
  obtain ⟨neg, u, hsplit, hne, hdigits, rfl, -⟩ := strictly_strtoll_scan h
  rcases signSplit_strict hstart hsplit with ⟨rfl, rfl⟩ | ⟨-, rfl, rfl⟩
  · exact .plain hne hdigits
  · exact .minus rfl hne hdigits

theorem strictly_strtoull_denotes {s : Bytes} {n : Nat} (h : strictly strtoull s = some n) :
    Denotes false s n ↔ lenientStart false s = false := by
  refine ⟨Denotes.start, fun hstart => ?_⟩
  obtain ⟨neg, u, hsplit, hne, hdigits, rfl, -⟩ := strictly_strtoull_scan h
  rcases signSplit_strict hstart hsplit with ⟨rfl, rfl⟩ | ⟨hsigned, -, -⟩
  · exact .plain hne hdigits
  · cases hsigned

/-- White space, an optional sign and digits, and the integer they denote. -/
inductive Numeral : Bytes → Int → Prop
  | signed {space t : Bytes} {z : Int} (hspace : ∀ b ∈ space, isSpace b = true)
      (h : Denotes true t z) : Numeral (space ++ t) z
  | plus {space t : Bytes} {z : Int} (hspace : ∀ b ∈ space, isSpace b = true)
      (h : Denotes false t z) : Numeral (space ++ 43 :: t) z

private theorem dropWhile_space {space : Bytes} {b : UInt8} {bs : Bytes}
    (hspace : ∀ c ∈ space, isSpace c = true) (hb : isSpace b = false) :
    (space ++ b :: bs).dropWhile isSpace = b :: bs := by
  rw [List.dropWhile_append_of_pos hspace, List.dropWhile_cons_of_neg (by simp [hb])]

private theorem Numeral.scan {s : Bytes} {z : Int} (h : Numeral s z) :
    ∃ neg u, signSplit (s.dropWhile isSpace) = (neg, u) ∧ u ≠ [] ∧ (∀ b ∈ u, isDigit b = true) ∧
      z = if neg then -(digitsValue u : Int) else digitsValue u := by
  cases h with
  | @signed space t z hspace h =>
      cases h with
      | plain hne hdigits =>
          obtain ⟨b, bs, rfl⟩ := List.exists_cons_of_ne_nil hne
          have hb := hdigits b List.mem_cons_self
          rw [dropWhile_space hspace (digit_not_space hb), signSplit_digit hb]
          exact ⟨false, b :: bs, rfl, hne, hdigits, rfl⟩
      | @minus ds _ hne hdigits =>
          rw [dropWhile_space hspace (by decide)]
          exact ⟨true, ds, rfl, hne, hdigits, rfl⟩
  | @plus space t z hspace h =>
      cases h with
      | plain hne hdigits =>
          rw [dropWhile_space hspace (by decide)]
          exact ⟨false, t, rfl, hne, hdigits, rfl⟩
      | minus hsigned _ _ => cases hsigned

theorem Numeral.unique {s : Bytes} {y z : Int} (hy : Numeral s y) (hz : Numeral s z) : y = z := by
  obtain ⟨neg, u, hsplit, -, -, rfl⟩ := hy.scan
  obtain ⟨neg', u', hsplit', -, -, rfl⟩ := hz.scan
  rw [hsplit] at hsplit'
  cases hsplit'
  rfl

theorem Numeral.strtoll {s : Bytes} {z : Int} (h : Numeral s z) :
    s ≠ [] ∧ (strtoll s).rest = [] ∧
      (Framework.strtoll s).value = max (-2 ^ 63) (min z (2 ^ 63 - 1)) := by
  obtain ⟨neg, u, hsplit, hne, hdigits, rfl⟩ := h.scan
  have hscan := @takeWhile_digits u [] hdigits (by simp)
  rw [List.append_nil] at hscan
  refine ⟨?_, ?_⟩
  · rintro rfl
    cases hsplit
    exact hne rfl
  · simp only [Framework.strtoll, hsplit, hscan.1, hscan.2, if_neg hne]
    generalize (if neg = true then -(digitsValue u : Int) else digitsValue u) = z
    by_cases hlow : z < -2 ^ 63
    · rw [if_pos hlow]
      refine ⟨rfl, ?_⟩
      change -2 ^ 63 = _
      omega
    rw [if_neg hlow]
    by_cases hhigh : 2 ^ 63 ≤ z
    · rw [if_pos hhigh]
      refine ⟨rfl, ?_⟩
      change 2 ^ 63 - 1 = _
      omega
    rw [if_neg hhigh]
    refine ⟨rfl, ?_⟩
    change z = _
    omega

theorem numeral_of_strtoll {s : Bytes} (hread : (strtoll s).rest ≠ s)
    (hrest : (strtoll s).rest = []) : ∃ z, Numeral s z := by
  cases hsplit : signSplit (s.dropWhile isSpace) with
  | mk neg u =>
      have hstrtoll : (strtoll s).rest =
          if u.takeWhile isDigit = [] then s else u.dropWhile isDigit := by
        simp only [strtoll, hsplit]
        repeat' split
        all_goals rfl
      rw [hstrtoll] at hread hrest
      by_cases hds : u.takeWhile isDigit = []
      · rw [if_pos hds] at hread
        exact absurd rfl hread
      rw [if_neg hds] at hrest
      obtain ⟨htake, hdigits⟩ := all_of_dropWhile hrest
      rw [htake] at hds
      have hspace : ∀ b ∈ s.takeWhile isSpace, isSpace b = true :=
        List.all_eq_true.mp List.all_takeWhile
      rw [← List.takeWhile_append_dropWhile (p := isSpace) (l := s)]
      unfold signSplit at hsplit
      split at hsplit
      · next heq =>
          cases hsplit
          rw [heq]
          exact ⟨_, .signed hspace (.minus rfl hds hdigits)⟩
      · next heq =>
          cases hsplit
          rw [heq]
          exact ⟨_, .plus hspace (.plain hds hdigits)⟩
      · cases hsplit
        exact ⟨_, .signed hspace (.plain hds hdigits)⟩

theorem strtoull_append {space : Bytes} (hspace : ∀ c ∈ space, isSpace c = true) {n : Nat}
    (hn : n < 2 ^ 64) {rest : Bytes} (hrest : ∀ b ∈ rest.head?, isDigit b = false) :
    strtoull (space ++ (decimal n ++ rest)) = ⟨n, false, rest⟩ := by
  have hscan := takeWhile_digits (decimal_isDigit n) hrest
  have hsplit : signSplit ((space ++ (decimal n ++ rest)).dropWhile isSpace) =
      (false, decimal n ++ rest) := by
    obtain ⟨b, bs, hd⟩ := List.exists_cons_of_ne_nil (decimal_ne_nil n)
    have hb : isDigit b = true := decimal_isDigit n b (by simp [hd])
    rw [hd, List.cons_append, dropWhile_space hspace (digit_not_space hb), signSplit_digit hb]
  simp only [strtoull, hsplit, hscan.1, hscan.2, if_neg (decimal_ne_nil n), digitsValue_decimal,
    if_neg (Nat.not_le.mpr hn), Bool.false_eq_true, if_false]

end EdgeMind.Framework
