import Mathlib.Data.List.TakeWhile
import EdgeMind.Framework.Json

/-!
# JSON documents

Documents with a reader for their texts and a writer of compact texts, over any way to write strings. The
reader takes one document from the front of a text and gives back what stands behind it, so what is
written is read from any longer text in which a number does not go on.
-/

namespace EdgeMind.Framework.Json

def Escape.ofLetter (b : UInt8) : Option Escape :=
  if b = 34 then some .quote
  else if b = 92 then some .backslash
  else if b = 47 then some .slash
  else if b = 98 then some .backspace
  else if b = 102 then some .formFeed
  else if b = 110 then some .newline
  else if b = 114 then some .carriageReturn
  else if b = 116 then some .tab
  else none

namespace HexDigit

def value16 (n : Nat) : Fin 16 := ⟨n % 16, Nat.mod_lt _ (by decide)⟩

def ofByte (b : UInt8) : Option HexDigit :=
  if 48 ≤ b ∧ b ≤ 57 then some { value := value16 (b.toNat - 48) }
  else if 97 ≤ b ∧ b ≤ 102 then some { value := value16 (b.toNat - 87) }
  else if 65 ≤ b ∧ b ≤ 70 then some { value := value16 (b.toNat - 55), upper := true }
  else none

/-- The digits below ten have no letter. -/
def canonical (d : HexDigit) : HexDigit := { d with upper := d.upper && 10 ≤ d.value.val }

@[simp]
theorem ofByte_byte (d : HexDigit) : ofByte d.byte = some d.canonical := by
  obtain ⟨value, upper⟩ := d
  revert value upper
  decide

end HexDigit

namespace Character

def canonical : Character → Character
  | unicode d₁ d₂ d₃ d₄ => unicode d₁.canonical d₂.canonical d₃.canonical d₄.canonical
  | c => c

end Character

def readCharacter : Bytes → Option (Character × Bytes)
  | 92 :: 117 :: b₁ :: b₂ :: b₃ :: b₄ :: s => do
      let d₁ ← HexDigit.ofByte b₁
      let d₂ ← HexDigit.ofByte b₂
      let d₃ ← HexDigit.ofByte b₃
      let d₄ ← HexDigit.ofByte b₄
      return (.unicode d₁ d₂ d₃ d₄, s)
  | 92 :: e :: s => (Escape.ofLetter e).map fun escape => (.escape escape, s)
  | b :: s => if h : 32 ≤ b ∧ b ≠ 34 ∧ b ≠ 92 then some (.plain b h, s) else none
  | [] => none

@[simp]
theorem readCharacter_text (c : Character) (s : Bytes) :
    readCharacter (c.text ++ s) = some (c.canonical, s) := by
  cases c with
  | plain b h =>
      change readCharacter (b :: s) = _
      rw [readCharacter.eq_def]
      split
      · next heq => exact absurd (List.cons.inj heq).1 h.2.2
      · next heq => exact absurd (List.cons.inj heq).1 h.2.2
      · next heq =>
          obtain ⟨rfl, rfl⟩ := List.cons.inj heq
          rw [dif_pos h]
          rfl
      · next heq => cases heq
  | escape e => cases e <;> rfl
  | unicode d₁ d₂ d₃ d₄ => simp [Character.text, readCharacter, Character.canonical]

/-- The characters up to the quote that closes the string. -/
def readCharacters : Nat → Bytes → Option (List Character × Bytes)
  | 0, _ => none
  | fuel + 1, s =>
      if s.head? = some 34 then some ([], s.tail)
      else do
        let (c, s) ← readCharacter s
        let (cs, rest) ← readCharacters fuel s
        return (c :: cs, rest)

theorem Character.text_head (c : Character) (s : Bytes) : (c.text ++ s).head? ≠ some 34 := by
  cases c with
  | plain b h => simp [text, h.2.1]
  | _ => simp [text]

theorem readCharacters_textOf {cs : List Character} {fuel : Nat} (h : cs.length < fuel) (s : Bytes) :
    readCharacters fuel (textOf cs ++ 34 :: s) = some (cs.map Character.canonical, s) := by
  induction cs generalizing fuel with
  | nil =>
      obtain ⟨fuel, rfl⟩ := Nat.exists_eq_add_one_of_ne_zero (Nat.ne_of_gt h)
      rfl
  | cons c cs ih =>
      obtain ⟨fuel, rfl⟩ := Nat.exists_eq_add_one_of_ne_zero (Nat.ne_of_gt (Nat.zero_lt_of_lt h))
      rw [textOf_cons, List.append_assoc, readCharacters, if_neg (c.text_head _), readCharacter_text]
      simp [ih (Nat.lt_of_succ_lt_succ h)]

/-- A way to write strings, in digits without a choice. -/
structure Encoding where
  encode : Bytes → List Character
  decodes : ∀ s, decode (encode s) = some s
  canonical : ∀ s, (encode s).map Character.canonical = encode s

def readString (fuel : Nat) (s : Bytes) : Option (Bytes × Bytes) := do
  let (cs, rest) ← readCharacters fuel s
  return (← decode cs, rest)

theorem Encoding.readString (e : Encoding) {s : Bytes} {fuel : Nat} (h : (e.encode s).length < fuel)
    (rest : Bytes) : readString fuel (textOf (e.encode s) ++ 34 :: rest) = some (s, rest) := by
  simp [Json.readString, readCharacters_textOf h, e.canonical, e.decodes]

theorem length_le_textOf (cs : List Character) : cs.length ≤ (textOf cs).length := by
  induction cs with
  | nil => simp
  | cons c cs ih =>
      have hc : 1 ≤ c.text.length := by cases c <;> simp [Character.text]
      rw [textOf_cons, List.length_append, List.length_cons]
      omega

def isNumberByte (b : UInt8) : Bool :=
  isDigit b || b = 43 || b = 45 || b = 46 || b = 69 || b = 101

/-- What stands behind the digits of a fraction, or behind those of the integer if it has none. -/
def isExponent : Bytes → Bool
  | [] => true
  | e :: s =>
      let digits := if s.head? = some 43 ∨ s.head? = some 45 then s.tail else s
      (e = 69 || e = 101) && digits ≠ [] && digits.all isDigit

def isNumber (s : Bytes) : Bool :=
  let unsigned := if s.head? = some 45 then s.tail else s
  let whole := unsigned.takeWhile isDigit
  let behind := unsigned.dropWhile isDigit
  whole ≠ [] && (whole.head? ≠ some 48 || whole.length = 1) &&
    if behind.head? = some 46 then
      behind.tail.takeWhile isDigit ≠ [] && isExponent (behind.tail.dropWhile isDigit)
    else isExponent behind

structure Number where
  literal : Bytes
  valid : isNumber literal = true
deriving DecidableEq

theorem decimal_zero_head {n : Nat} (h : (decimal n).head? = some 48) : n = 0 := by
  by_contra hn
  have hprefix : [48] <+: decimal n := by
    obtain ⟨rest, hrest⟩ := List.head?_eq_some_iff.mp h
    exact ⟨rest, hrest.symm⟩
  obtain ⟨k, hk, hpos⟩ := decimal_prefix hprefix (List.cons_ne_nil _ _)
  have hzero : n / 10 ^ k = 0 := decimal_injective (hk.symm.trans rfl)
  have := hpos (Nat.pos_of_ne_zero hn)
  omega

theorem decimal_head_ne_minus (n : Nat) : (decimal n).head? ≠ some 45 := by
  intro h
  exact absurd (decimal_isDigit n 45 (List.mem_of_mem_head? h)) (by decide)

theorem span_append {p : UInt8 → Bool} {s rest : Bytes} (hs : ∀ b ∈ s, p b = true)
    (hrest : ∀ b ∈ rest.head?, p b = false) :
    (s ++ rest).takeWhile p = s ∧ (s ++ rest).dropWhile p = rest := by
  rw [List.takeWhile_append_of_pos hs, List.dropWhile_append_of_pos hs]
  cases rest with
  | nil => simp
  | cons b bs => simp [hrest b rfl]

theorem isExponent_head {s : Bytes} (h : isExponent s = true) :
    ∀ b ∈ s.head?, isDigit b = false ∧ b ≠ 46 := by
  cases s with
  | nil => simp
  | cons e s =>
      simp only [isExponent, Bool.and_eq_true, Bool.or_eq_true, decide_eq_true_iff] at h
      intro b hb
      cases hb
      rcases h.1.1 with rfl | rfl <;> decide

theorem isNumber_parts (sign : Bool) (n : Nat) {fraction exponent : Bytes}
    (hfraction : ∀ b ∈ fraction, isDigit b = true) (hexponent : isExponent exponent = true) :
    isNumber ((if sign then [45] else []) ++ (decimal n ++
      ((if fraction = [] then [] else 46 :: fraction) ++ exponent))) = true := by
  generalize htail : (if fraction = [] then [] else 46 :: fraction) ++ exponent = tail
  have hbehind : ∀ b ∈ tail.head?, isDigit b = false := by
    rw [← htail]
    intro b hb
    split at hb
    · exact (isExponent_head hexponent b hb).1
    · cases hb
      decide
  have hunsigned (s : Bytes) (hs : s = (if sign then [45] else []) ++ (decimal n ++ tail)) :
      (if s.head? = some 45 then s.tail else s) = decimal n ++ tail := by
    cases sign with
    | true => simp [hs]
    | false =>
        have hhead : (decimal n ++ tail).head? ≠ some 45 := by
          rw [List.head?_append_of_ne_nil _ (decimal_ne_nil n)]
          exact decimal_head_ne_minus n
        subst hs
        exact if_neg hhead
  have ⟨hwhole, hrest⟩ := span_append (decimal_isDigit n) hbehind
  have hzero : (decimal n).head? ≠ some 48 ∨ (decimal n).length = 1 := by
    by_cases h : (decimal n).head? = some 48
    · rw [decimal_zero_head h]
      exact .inr rfl
    · exact .inl h
  have hfinal : (if tail.head? = some 46 then
      tail.tail.takeWhile isDigit ≠ [] && isExponent (tail.tail.dropWhile isDigit)
      else isExponent tail) = true := by
    by_cases h : fraction = []
    · rw [if_pos h, List.nil_append] at htail
      subst htail
      have hpoint : exponent.head? ≠ some 46 := fun h => (isExponent_head hexponent 46 h).2 rfl
      rw [if_neg hpoint]
      exact hexponent
    · rw [if_neg h, List.cons_append] at htail
      subst htail
      have ⟨htake, hdrop⟩ := span_append hfraction fun b hb => (isExponent_head hexponent b hb).1
      simp [htake, hdrop, h, hexponent]
  unfold isNumber
  simp only [hunsigned _ rfl, hwhole, hrest]
  rw [Bool.and_eq_true]
  exact ⟨by simp [hzero, decimal_ne_nil], hfinal⟩

theorem isNumber_intDecimal (z : Int) : isNumber (intDecimal z) = true := by
  have hparts := @isNumber_parts (decide (z < 0)) z.natAbs [] [] (by simp) rfl
  unfold intDecimal
  split <;> simp_all

def Number.ofInt (z : Int) : Number := ⟨intDecimal z, isNumber_intDecimal z⟩

theorem isNumberByte_of_isDigit {b : UInt8} (h : isDigit b = true) : isNumberByte b = true := by
  simp [isNumberByte, h]

theorem number_bytes_of_tail {s : Bytes} {p : Prop} [Decidable p]
    (hhead : p → ∀ b ∈ s.head?, isNumberByte b = true)
    (htail : ∀ b ∈ if p then s.tail else s, isNumberByte b = true) :
    ∀ b ∈ s, isNumberByte b = true := by
  split at htail
  · next h =>
      cases s with
      | nil => simp
      | cons b s => exact List.forall_mem_cons.mpr ⟨hhead h b rfl, htail⟩
  · exact htail

theorem isExponent_bytes {s : Bytes} (h : isExponent s = true) : ∀ b ∈ s, isNumberByte b = true := by
  cases s with
  | nil => simp
  | cons e s =>
      simp only [isExponent, Bool.and_eq_true, Bool.or_eq_true, decide_eq_true_iff,
        List.all_eq_true] at h
      obtain ⟨⟨he, -⟩, hdigits⟩ := h
      rw [List.forall_mem_cons]
      constructor
      · rcases he with rfl | rfl <;> decide
      · apply number_bytes_of_tail (p := s.head? = some 43 ∨ s.head? = some 45)
        · rintro (hsign | hsign) b hb
          · cases hsign.symm.trans hb
            decide
          · cases hsign.symm.trans hb
            decide
        · intro b hb
          exact isNumberByte_of_isDigit (hdigits b hb)

theorem Number.literal_bytes (n : Number) : ∀ b ∈ n.literal, isNumberByte b = true := by
  obtain ⟨s, h⟩ := n
  change ∀ b ∈ s, isNumberByte b = true
  simp only [isNumber, Bool.and_eq_true] at h
  apply number_bytes_of_tail (p := s.head? = some 45)
  · intro hsign b hb
    cases hsign.symm.trans hb
    decide
  · generalize (if s.head? = some 45 then s.tail else s) = unsigned at h ⊢
    rw [← List.takeWhile_append_dropWhile (p := isDigit) (l := unsigned)]
    refine List.forall_mem_append.mpr ⟨fun b hb => ?_, ?_⟩
    · exact isNumberByte_of_isDigit (List.mem_takeWhile_imp hb)
    generalize unsigned.dropWhile isDigit = behind at h ⊢
    apply number_bytes_of_tail (p := behind.head? = some 46)
    · intro hpoint b hb
      cases hpoint.symm.trans hb
      decide
    · have hbehind := h.2
      split at hbehind
      · next hpoint =>
          rw [Bool.and_eq_true] at hbehind
          rw [if_pos hpoint, ← List.takeWhile_append_dropWhile (p := isDigit) (l := behind.tail)]
          refine List.forall_mem_append.mpr ⟨fun b hb => ?_, isExponent_bytes hbehind.2⟩
          exact isNumberByte_of_isDigit (List.mem_takeWhile_imp hb)
      · next hpoint =>
          rw [if_neg hpoint]
          exact isExponent_bytes hbehind

def readNumber (s : Bytes) : Option (Number × Bytes) :=
  let literal := s.takeWhile isNumberByte
  if h : isNumber literal = true then some (⟨literal, h⟩, s.dropWhile isNumberByte) else none

/-- A number does not go on. -/
def Ends (rest : Bytes) : Prop := ∀ b ∈ rest.head?, isNumberByte b = false

theorem ends_cons {b : UInt8} (h : isNumberByte b = false) (s : Bytes) : Ends (b :: s) := by
  intro b' hb
  cases hb
  exact h

theorem readNumber_literal (n : Number) {rest : Bytes} (h : Ends rest) :
    readNumber (n.literal ++ rest) = some (n, rest) := by
  have ⟨htake, hdrop⟩ := span_append n.literal_bytes h
  unfold readNumber
  simp only [htake, hdrop, n.valid]
  rfl

inductive Document
  | null
  | boolean (b : Bool)
  | number (n : Number)
  | string (s : Bytes)
  | array (elements : List Document)
  | object (members : List (Bytes × Document))

def joined (texts : List Bytes) : Bytes := [44].intercalate texts

variable (e : Encoding)

mutual

def Document.text : Document → Bytes
  | .null => Framework.text "null"
  | .boolean true => Framework.text "true"
  | .boolean false => Framework.text "false"
  | .number n => n.literal
  | .string s => quoted (e.encode s)
  | .array elements => 91 :: joined (elementTexts elements) ++ [93]
  | .object members => 123 :: joined (memberTexts members) ++ [125]

def elementTexts : List Document → List Bytes
  | [] => []
  | d :: ds => d.text :: elementTexts ds

def memberTexts : List (Bytes × Document) → List Bytes
  | [] => []
  | (key, d) :: ms => (quoted (e.encode key) ++ 58 :: d.text) :: memberTexts ms

end

def isBlank (b : UInt8) : Bool := b = 32 || b = 9 || b = 10 || b = 13

def skipBlank (s : Bytes) : Bytes := s.dropWhile isBlank

/-- Items with commas between them, up to the byte that closes them. -/
def readItems {α : Type} (item : Bytes → Option (α × Bytes)) (close : UInt8) :
    Nat → Bytes → Option (List α × Bytes)
  | 0, _ => none
  | fuel + 1, s => do
      let (a, s) ← item s
      match skipBlank s with
      | b :: s =>
          if b = close then some ([a], s)
          else if b = 44 then (readItems item close fuel s).map fun (as, rest) => (a :: as, rest)
          else none
      | [] => none

def readList {α : Type} (item : Bytes → Option (α × Bytes)) (close : UInt8) (fuel : Nat) (s : Bytes) :
    Option (List α × Bytes) :=
  match skipBlank s with
  | b :: rest => if b = close then some ([], rest) else readItems item close fuel s
  | [] => none

def readMember (fuel : Nat) (value : Bytes → Option (Document × Bytes)) (s : Bytes) :
    Option ((Bytes × Document) × Bytes) :=
  match skipBlank s with
  | 34 :: s => do
      let (key, s) ← readString fuel s
      match skipBlank s with
      | 58 :: s => (value s).map fun (d, rest) => ((key, d), rest)
      | _ => none
  | _ => none

def readWord (word : Bytes) (d : Document) (s : Bytes) : Option (Document × Bytes) :=
  if word <+: s then some (d, s.drop word.length) else none

/-- The document at the front of a text, and what stands behind it. -/
def readDocument : Nat → Bytes → Option (Document × Bytes)
  | 0, _ => none
  | fuel + 1, s =>
      match skipBlank s with
      | [] => none
      | b :: s =>
          if b = 34 then (readString fuel s).map fun (t, rest) => (.string t, rest)
          else if b = 91 then
            (readList (readDocument fuel) 93 fuel s).map fun (ds, rest) => (.array ds, rest)
          else if b = 123 then
            (readList (readMember fuel (readDocument fuel)) 125 fuel s).map fun (ms, rest) =>
              (.object ms, rest)
          else if b = 110 then readWord (text "null") .null (b :: s)
          else if b = 116 then readWord (text "true") (.boolean true) (b :: s)
          else if b = 102 then readWord (text "false") (.boolean false) (b :: s)
          else (readNumber (b :: s)).map fun (n, rest) => (.number n, rest)

def parse (s : Bytes) : Option Document :=
  match readDocument (s.length + 1) s with
  | some (d, rest) => if skipBlank rest = [] then some d else none
  | none => none

theorem skipBlank_cons {b : UInt8} (h : isBlank b = false) (s : Bytes) : skipBlank (b :: s) = b :: s := by
  simp [skipBlank, h]

theorem isBlank_of_isNumberByte {b : UInt8} (h : isNumberByte b = true) : isBlank b = false := by
  by_contra hblank
  simp only [isBlank, Bool.not_eq_false, Bool.or_eq_true, decide_eq_true_iff] at hblank
  rcases hblank with ((rfl | rfl) | rfl) | rfl <;> exact absurd h (by decide)

@[simp]
theorem joined_singleton (t : Bytes) : joined [t] = t := by
  simp [joined]

@[simp]
theorem joined_cons_cons (t t' : Bytes) (ts : List Bytes) :
    joined (t :: t' :: ts) = t ++ 44 :: joined (t' :: ts) := by
  simp [joined, List.intercalate_cons_cons]

theorem length_le_joined {ts : List Bytes} {t : Bytes} (h : t ∈ ts) :
    t.length ≤ (joined ts).length := by
  induction ts with
  | nil => cases h
  | cons t' ts ih =>
      cases ts with
      | nil =>
          rw [List.mem_singleton.mp h, joined_singleton]
      | cons t'' ts =>
          rw [joined_cons_cons, List.length_append, List.length_cons]
          rcases List.mem_cons.mp h with rfl | h
          · omega
          · have := ih h
            omega

theorem length_joined (ts : List Bytes) : ts.length ≤ (joined ts).length + 1 := by
  induction ts with
  | nil => simp
  | cons t ts ih =>
      cases ts with
      | nil => simp
      | cons t' ts =>
          rw [joined_cons_cons, List.length_append]
          simp only [List.length_cons] at ih ⊢
          omega

variable {α : Type} {item : Bytes → Option (α × Bytes)} {write : α → Bytes} {close : UInt8}

theorem readItems_joined (hclose : isBlank close = false ∧ isNumberByte close = false ∧ close ≠ 44)
    {as : List α} (hne : as ≠ [])
    (hitem : ∀ a ∈ as, ∀ rest, Ends rest → item (write a ++ rest) = some (a, rest))
    {fuel : Nat} (hfuel : as.length ≤ fuel) (rest : Bytes) :
    readItems item close fuel (joined (as.map write) ++ close :: rest) = some (as, rest) := by
  induction as generalizing fuel with
  | nil => exact absurd rfl hne
  | cons a as ih =>
      obtain ⟨fuel, rfl⟩ := Nat.exists_eq_add_one_of_ne_zero (Nat.ne_of_gt (Nat.lt_of_lt_of_le
        (Nat.succ_pos _) hfuel))
      rw [List.forall_mem_cons] at hitem
      cases as with
      | nil =>
          rw [List.map_singleton, joined_singleton, readItems, hitem.1 _ (ends_cons hclose.2.1 rest)]
          simp [skipBlank_cons hclose.1]
      | cons a' as =>
          rw [List.map_cons, List.map_cons, joined_cons_cons, List.append_assoc, readItems,
            List.cons_append, hitem.1 _ (ends_cons rfl _)]
          have hrest := ih (List.cons_ne_nil _ _) hitem.2 (Nat.le_of_succ_le_succ hfuel)
          rw [List.map_cons] at hrest
          simp [skipBlank_cons (b := 44) rfl, hrest, hclose.2.2.symm]

theorem readList_joined (hclose : isBlank close = false ∧ isNumberByte close = false ∧ close ≠ 44)
    {as : List α} (hitem : ∀ a ∈ as, ∀ rest, Ends rest → item (write a ++ rest) = some (a, rest))
    (hwrite : ∀ a ∈ as, ∃ b s, write a = b :: s ∧ isBlank b = false ∧ b ≠ close)
    {fuel : Nat} (hfuel : as.length ≤ fuel) (rest : Bytes) :
    readList item close fuel (joined (as.map write) ++ close :: rest) = some (as, rest) := by
  have hitems := fun hne => readItems_joined hclose hne hitem hfuel rest
  cases as with
  | nil =>
      change readList item close fuel (close :: rest) = _
      simp [readList, skipBlank_cons hclose.1]
  | cons a as =>
      obtain ⟨b, s, hb, hblank, hne⟩ := hwrite a List.mem_cons_self
      obtain ⟨behind, hbehind⟩ : ∃ behind,
          joined ((a :: as).map write) ++ close :: rest = b :: behind := by
        cases as <;> simp [hb]
      have hread := hitems (List.cons_ne_nil _ _)
      rw [hbehind] at hread ⊢
      simp only [readList, skipBlank_cons hblank, hread]
      exact if_neg hne

theorem readWord_append (word : Bytes) (d : Document) (rest : Bytes) :
    readWord word d (word ++ rest) = some (d, rest) := by
  simp [readWord]

theorem elementTexts_eq (ds : List Document) : elementTexts e ds = ds.map (Document.text e) := by
  induction ds with
  | nil => rfl
  | cons d ds ih => rw [elementTexts, ih, List.map_cons]

def writtenMember (m : Bytes × Document) : Bytes := quoted (e.encode m.1) ++ 58 :: m.2.text e

theorem memberTexts_eq (ms : List (Bytes × Document)) : memberTexts e ms = ms.map (writtenMember e) := by
  induction ms with
  | nil => rfl
  | cons m ms ih =>
      rw [memberTexts, ih, List.map_cons]
      rfl

theorem Number.literal_cons (n : Number) : ∃ b s, n.literal = b :: s ∧ isNumberByte b = true := by
  cases h : n.literal with
  | nil =>
      have hvalid := n.valid
      rw [h] at hvalid
      cases hvalid
  | cons b s => exact ⟨b, s, rfl, n.literal_bytes b (by simp [h])⟩

theorem Document.text_cons (d : Document) :
    ∃ b s, d.text e = b :: s ∧ isBlank b = false ∧ b ≠ 93 := by
  cases d with
  | number n =>
      obtain ⟨b, s, hb, hnumber⟩ := n.literal_cons
      refine ⟨b, s, hb, isBlank_of_isNumberByte hnumber, ?_⟩
      rintro rfl
      cases hnumber
  | boolean b => cases b <;> exact ⟨_, _, rfl, rfl, by decide⟩
  | _ => exact ⟨_, _, rfl, rfl, by decide⟩

theorem readDocument_cons {b : UInt8} (h : isBlank b = false) (fuel : Nat) (s : Bytes) :
    readDocument (fuel + 1) (b :: s) =
      if b = 34 then (readString fuel s).map fun (t, rest) => (.string t, rest)
      else if b = 91 then
        (readList (readDocument fuel) 93 fuel s).map fun (ds, rest) => (.array ds, rest)
      else if b = 123 then
        (readList (readMember fuel (readDocument fuel)) 125 fuel s).map fun (ms, rest) =>
          (.object ms, rest)
      else if b = 110 then readWord (text "null") .null (b :: s)
      else if b = 116 then readWord (text "true") (.boolean true) (b :: s)
      else if b = 102 then readWord (text "false") (.boolean false) (b :: s)
      else (readNumber (b :: s)).map fun (n, rest) => (.number n, rest) := by
  rw [readDocument, skipBlank_cons h]

theorem readString_quoted (s : Bytes) {fuel : Nat} (h : (quoted (e.encode s)).length ≤ fuel + 1)
    (rest : Bytes) : readString fuel (textOf (e.encode s) ++ 34 :: rest) = some (s, rest) := by
  have hlength := length_le_textOf (e.encode s)
  simp only [quoted, List.length_cons, List.length_append, List.length_nil] at h
  exact e.readString (by omega) rest

theorem readMember_written {m : Bytes × Document} {value : Bytes → Option (Document × Bytes)}
    {fuel : Nat} (hkey : (quoted (e.encode m.1)).length ≤ fuel + 1) {rest : Bytes}
    (hvalue : value (m.2.text e ++ rest) = some (m.2, rest)) :
    readMember fuel value (writtenMember e m ++ rest) = some (m, rest) := by
  have htext : writtenMember e m ++ rest =
      34 :: (textOf (e.encode m.1) ++ 34 :: 58 :: (m.2.text e ++ rest)) := by
    simp [writtenMember, quoted]
  rw [htext, readMember, skipBlank_cons rfl]
  simp [readString_quoted e m.1 hkey, skipBlank_cons (b := 58) rfl, hvalue]

theorem readDocument_number (n : Number) (fuel : Nat) {rest : Bytes} (hrest : Ends rest) :
    readDocument (fuel + 1) (n.literal ++ rest) = some (.number n, rest) := by
  obtain ⟨b, s, hb, hnumber⟩ := n.literal_cons
  have hne (c : UInt8) (hc : isNumberByte c = false) : b ≠ c := by
    rintro rfl
    rw [hnumber] at hc
    cases hc
  have hread := readNumber_literal n hrest
  rw [hb, List.cons_append] at hread ⊢
  rw [readDocument_cons (isBlank_of_isNumberByte hnumber), if_neg (hne 34 rfl), if_neg (hne 91 rfl),
    if_neg (hne 123 rfl), if_neg (hne 110 rfl), if_neg (hne 116 rfl), if_neg (hne 102 rfl), hread]
  rfl

section Nested

variable {fuel : Nat}
  (hread : ∀ d : Document, (d.text e).length < fuel → ∀ rest, Ends rest →
    readDocument fuel (d.text e ++ rest) = some (d, rest))

include hread

theorem readDocument_array {ds : List Document} (h : ((Document.array ds).text e).length < fuel + 1)
    (rest : Bytes) :
    readDocument (fuel + 1) ((Document.array ds).text e ++ rest) = some (.array ds, rest) := by
  have hlength : (joined (ds.map (Document.text e))).length + 1 < fuel := by
    rw [Document.text, elementTexts_eq] at h
    simpa using h
  have helement : ∀ d ∈ ds, ∀ rest, Ends rest →
      readDocument fuel (d.text e ++ rest) = some (d, rest) := by
    intro d hd
    have hle := length_le_joined (List.mem_map_of_mem (f := Document.text e) hd)
    exact hread d (by omega)
  have hcount := length_joined (ds.map (Document.text e))
  rw [List.length_map] at hcount
  have hlist : readList (readDocument fuel) 93 fuel
      (joined (ds.map (Document.text e)) ++ 93 :: rest) = some (ds, rest) :=
    readList_joined ⟨rfl, rfl, by decide⟩ helement (fun d _ => d.text_cons e) (by omega) rest
  change readDocument (fuel + 1) (91 :: (joined (elementTexts e ds) ++ [93] ++ rest)) = _
  rw [readDocument_cons rfl, elementTexts_eq, List.append_assoc]
  simp [hlist]

theorem readDocument_object {ms : List (Bytes × Document)}
    (h : ((Document.object ms).text e).length < fuel + 1) (rest : Bytes) :
    readDocument (fuel + 1) ((Document.object ms).text e ++ rest) = some (.object ms, rest) := by
  have hlength : (joined (ms.map (writtenMember e))).length + 1 < fuel := by
    rw [Document.text, memberTexts_eq] at h
    simpa using h
  have hmember : ∀ m ∈ ms, ∀ rest, Ends rest →
      readMember fuel (readDocument fuel) (writtenMember e m ++ rest) = some (m, rest) := by
    intro m hm rest hrest
    have hle := length_le_joined (List.mem_map_of_mem (f := writtenMember e) hm)
    simp only [writtenMember, List.length_append, List.length_cons] at hle
    exact readMember_written e (by omega) (hread m.2 (by omega) rest hrest)
  have hcount := length_joined (ms.map (writtenMember e))
  rw [List.length_map] at hcount
  have hlist : readList (readMember fuel (readDocument fuel)) 125 fuel
      (joined (ms.map (writtenMember e)) ++ 125 :: rest) = some (ms, rest) :=
    readList_joined ⟨rfl, rfl, by decide⟩ hmember (fun m _ => ⟨34, _, rfl, rfl, by decide⟩)
      (by omega) rest
  change readDocument (fuel + 1) (123 :: (joined (memberTexts e ms) ++ [125] ++ rest)) = _
  rw [readDocument_cons rfl, memberTexts_eq, List.append_assoc]
  simp [hlist]

end Nested

/-- Every document is read back from its text, whatever stands behind it that is not part of a number. -/
theorem readDocument_text (d : Document) {fuel : Nat} (h : (d.text e).length < fuel) {rest : Bytes}
    (hrest : Ends rest) : readDocument fuel (d.text e ++ rest) = some (d, rest) := by
  induction fuel generalizing d rest with
  | zero => exact absurd h (Nat.not_lt_zero _)
  | succ fuel ih =>
      cases d with
      | null =>
          change readDocument (fuel + 1) (110 :: ([117, 108, 108] ++ rest)) = _
          rw [readDocument_cons rfl]
          exact readWord_append (text "null") .null rest
      | boolean b =>
          cases b with
          | true =>
              change readDocument (fuel + 1) (116 :: ([114, 117, 101] ++ rest)) = _
              rw [readDocument_cons rfl]
              exact readWord_append (text "true") (.boolean true) rest
          | false =>
              change readDocument (fuel + 1) (102 :: ([97, 108, 115, 101] ++ rest)) = _
              rw [readDocument_cons rfl]
              exact readWord_append (text "false") (.boolean false) rest
      | number n => exact readDocument_number n fuel hrest
      | string s =>
          change readDocument (fuel + 1) (34 :: (textOf (e.encode s) ++ [34] ++ rest)) = _
          rw [readDocument_cons rfl, List.append_assoc]
          simp [readString_quoted e s (Nat.le_of_lt h)]
      | array ds => exact readDocument_array e (fun d hd _ hrest => ih d hd hrest) h rest
      | object ms => exact readDocument_object e (fun d hd _ hrest => ih d hd hrest) h rest

theorem parse_text (d : Document) : parse (d.text e) = some d := by
  have hends : Ends [] := by simp [Ends]
  have hread := readDocument_text e d (Nat.lt_succ_self _) hends
  rw [List.append_nil] at hread
  unfold parse
  simp [hread, skipBlank]

end EdgeMind.Framework.Json
