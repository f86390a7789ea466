import EdgeMind.Framework.Decimal

/-!
# JSON texts

Strings as they are written, with the bytes they denote, and objects whose members are strings or
integers, with any white space between the parts. A string is written without raw control characters,
and every quote in it stands behind a backslash, so its end is the first quote that does not.
-/

namespace EdgeMind.Framework.Json

inductive Escape
  | quote | backslash | slash | backspace | formFeed | newline | carriageReturn | tab
deriving DecidableEq

def Escape.letter : Escape → UInt8
  | quote => 34
  | backslash => 92
  | slash => 47
  | backspace => 98
  | formFeed => 102
  | newline => 110
  | carriageReturn => 114
  | tab => 116

def Escape.meaning : Escape → UInt8
  | quote => 34
  | backslash => 92
  | slash => 47
  | backspace => 8
  | formFeed => 12
  | newline => 10
  | carriageReturn => 13
  | tab => 9

/-- A hexadecimal digit, and the case of its letter. -/
structure HexDigit where
  value : Fin 16
  upper : Bool := false
deriving DecidableEq

def HexDigit.byte (d : HexDigit) : UInt8 :=
  UInt8.ofNat (if d.value.val < 10 then 48 + d.value.val
    else if d.upper then 55 + d.value.val else 87 + d.value.val)

/-- One character of a string as it is written; bytes from 128 on are passed through. -/
inductive Character
  | plain (b : UInt8) (h : 32 ≤ b ∧ b ≠ 34 ∧ b ≠ 92)
  | escape (e : Escape)
  | unicode (d₁ d₂ d₃ d₄ : HexDigit)
deriving DecidableEq

namespace Character

def text : Character → Bytes
  | plain b _ => [b]
  | escape e => [92, e.letter]
  | unicode d₁ d₂ d₃ d₄ => [92, 117, d₁.byte, d₂.byte, d₃.byte, d₄.byte]

/-- It is written with the number of its code unit. -/
def isUnicode : Character → Bool
  | unicode .. => true
  | _ => false

end Character

def textOf (cs : List Character) : Bytes := cs.flatMap Character.text

@[simp]
theorem textOf_nil : textOf [] = [] := rfl

theorem textOf_cons (c : Character) (cs : List Character) : textOf (c :: cs) = c.text ++ textOf cs :=
  List.flatMap_cons

def quoted (cs : List Character) : Bytes := 34 :: textOf cs ++ [34]

/-- The number that four hexadecimal digits write. -/
def codeUnit (d₁ d₂ d₃ d₄ : HexDigit) : Nat :=
  ((d₁.value.val * 16 + d₂.value.val) * 16 + d₃.value.val) * 16 + d₄.value.val

def utf8 (n : Nat) : Bytes := String.utf8EncodeChar (Char.ofNat n)

def isHighSurrogate (n : Nat) : Bool := 0xd800 ≤ n && n < 0xdc00

def isLowSurrogate (n : Nat) : Bool := 0xdc00 ≤ n && n < 0xe000

/-- The bytes a string denotes; a surrogate that is not one of a pair denotes nothing. -/
def decode : List Character → Option Bytes
  | [] => some []
  | .plain b _ :: cs => (decode cs).map (b :: ·)
  | .escape e :: cs => (decode cs).map (e.meaning :: ·)
  | .unicode d₁ d₂ d₃ d₄ :: cs =>
      let high := codeUnit d₁ d₂ d₃ d₄
      if isLowSurrogate high then none
      else if isHighSurrogate high then
        match cs with
        | .unicode d₁ d₂ d₃ d₄ :: cs =>
            let low := codeUnit d₁ d₂ d₃ d₄
            if isLowSurrogate low then
              (decode cs).map (utf8 (0x10000 + (high - 0xd800) * 0x400 + (low - 0xdc00)) ++ ·)
            else none
        | _ => none
      else (decode cs).map (utf8 high ++ ·)

theorem decode_unicode {d₁ d₂ d₃ d₄ : HexDigit} (h : codeUnit d₁ d₂ d₃ d₄ < 0xd800)
    (cs : List Character) : decode (.unicode d₁ d₂ d₃ d₄ :: cs) =
      (decode cs).map (utf8 (codeUnit d₁ d₂ d₃ d₄) ++ ·) := by
  have hlow : ¬isLowSurrogate (codeUnit d₁ d₂ d₃ d₄) = true := by
    rw [isLowSurrogate, decide_eq_false (by omega)]
    exact Bool.false_ne_true
  have hhigh : ¬isHighSurrogate (codeUnit d₁ d₂ d₃ d₄) = true := by
    rw [isHighSurrogate, decide_eq_false (by omega)]
    exact Bool.false_ne_true
  rw [decode.eq_def]
  exact (if_neg hlow).trans (if_neg hhigh)

theorem HexDigit.byte_ge (d : HexDigit) : 48 ≤ d.byte := by
  obtain ⟨value, upper⟩ := d
  revert value upper
  decide

theorem Character.text_ge (c : Character) : ∀ b ∈ c.text, 32 ≤ b := by
  have hdigit (d : HexDigit) : 32 ≤ d.byte := UInt8.le_trans (by decide) d.byte_ge
  cases c with
  | plain b h =>
      intro b' hb
      rw [List.mem_singleton.mp hb]
      exact h.1
  | escape e => cases e <;> decide +kernel
  | unicode d₁ d₂ d₃ d₄ =>
      intro b hb
      simp only [Character.text, List.mem_cons, List.not_mem_nil, or_false] at hb
      rcases hb with rfl | rfl | rfl | rfl | rfl | rfl
      · decide
      · decide
      · exact hdigit d₁
      · exact hdigit d₂
      · exact hdigit d₃
      · exact hdigit d₄

theorem textOf_ge (cs : List Character) : ∀ b ∈ textOf cs, 32 ≤ b := by
  intro b hb
  obtain ⟨c, -, hc⟩ := List.mem_flatMap.mp hb
  exact c.text_ge b hc

theorem newline_notMem_textOf (cs : List Character) : (10 : UInt8) ∉ textOf cs := by
  intro h
  exact absurd (textOf_ge cs 10 h) (by decide)

theorem decode_length_le {cs : List Character} (h : ∀ c ∈ cs, c.isUnicode = false) :
    ∃ s, decode cs = some s ∧ s.length ≤ (textOf cs).length := by
  induction cs with
  | nil => exact ⟨[], rfl, Nat.le_refl _⟩
  | cons c cs ih =>
      obtain ⟨hc, hcs⟩ := List.forall_mem_cons.mp h
      obtain ⟨s, hs, hlength⟩ := ih hcs
      rw [textOf_cons, List.length_append]
      cases c with
      | plain b hb =>
          refine ⟨b :: s, by rw [decode, hs, Option.map_some], ?_⟩
          rw [List.length_cons, Character.text, List.length_singleton]
          omega
      | escape e =>
          refine ⟨e.meaning :: s, by rw [decode, hs, Option.map_some], ?_⟩
          rw [List.length_cons, Character.text, List.length_cons]
          omega
      | unicode => cases hc

theorem Character.backslash_before_quote {c : Character} {u v : Bytes}
    (h : c.text = u ++ 34 :: v) : u = [92] := by
  cases c with
  | plain b hb =>
      rcases List.append_eq_singleton_iff.mp h.symm with ⟨-, hquote⟩ | ⟨-, hquote⟩
      · cases hquote
        exact absurd rfl hb.2.1
      · cases hquote
  | escape e =>
      cases u with
      | nil => exact absurd (List.cons.inj h).1 (by decide)
      | cons b u =>
          obtain ⟨rfl, hletter⟩ := List.cons.inj h
          rcases List.append_eq_singleton_iff.mp hletter.symm with ⟨rfl, -⟩ | ⟨-, hquote⟩
          · rfl
          · cases hquote
  | unicode d₁ d₂ d₃ d₄ =>
      have hquote : (34 : UInt8) ∈ (unicode d₁ d₂ d₃ d₄).text := by simp [h]
      have hdigit (d : HexDigit) : (34 : UInt8) ≠ d.byte := by
        intro heq
        have hge := d.byte_ge
        rw [← heq] at hge
        exact absurd hge (by decide)
      simp [Character.text, hdigit] at hquote

theorem backslash_before_quote {cs : List Character} {u v : Bytes} (h : textOf cs = u ++ 34 :: v) :
    ∃ u', u = u' ++ [92] := by
  induction cs generalizing u with
  | nil => exact absurd h.symm (by simp)
  | cons c cs ih =>
      rw [textOf_cons] at h
      rcases List.append_eq_append_iff.mp h with ⟨t, rfl, ht⟩ | ⟨t, ht, hrest⟩
      · obtain ⟨u', rfl⟩ := ih ht
        exact ⟨c.text ++ u', by rw [List.append_assoc]⟩
      · cases t with
        | nil =>
            obtain ⟨u', hu⟩ := ih (u := []) hrest.symm
            exact absurd hu (by simp)
        | cons b t =>
            obtain ⟨rfl, -⟩ := List.cons.inj hrest
            exact ⟨[], Character.backslash_before_quote ht⟩

theorem quoted_end {front before after tail k : Bytes} {cs : List Character}
    (h : before ++ (34 :: k ++ [34]) ++ after = front ++ (textOf cs ++ 34 :: tail))
    (hfront : ¬34 :: k ++ [34] <:+: front) (hlast : (34 :: k).getLast? ≠ some 92) :
    after <:+ tail := by
  have hsplit : before ++ 34 :: k ++ 34 :: after = front ++ (textOf cs ++ 34 :: tail) := by
    rw [← h]
    simp only [List.append_assoc, List.cons_append, List.nil_append]
  rcases List.append_eq_append_iff.mp hsplit with ⟨t, ht, hrest⟩ | ⟨t, ht, hrest⟩
  · cases t with
    | cons b t =>
        cases hrest
        exact absurd ⟨before, t, by rw [ht]; simp⟩ hfront
    | nil =>
        rw [List.nil_append] at hrest
        cases htext : textOf cs with
        | nil =>
            rw [htext] at hrest
            cases hrest
            exact List.suffix_refl _
        | cons b bs =>
            rw [htext] at hrest
            cases hrest
            obtain ⟨u, hu⟩ := backslash_before_quote (u := []) htext
            exact absurd hu (by simp)
  · rcases List.append_eq_append_iff.mp hrest with ⟨u, -, hu⟩ | ⟨u, htext, hu⟩
    · cases u with
      | nil =>
          cases hu
          exact List.suffix_refl _
      | cons b u =>
          cases hu
          exact (List.suffix_cons 34 after).trans (List.suffix_append u _)
    · cases u with
      | nil =>
          cases hu
          exact List.suffix_refl _
      | cons b u =>
          cases hu
          obtain ⟨t, rfl⟩ := backslash_before_quote htext
          have hend := congrArg List.getLast? ht
          rw [← List.append_assoc, List.getLast?_concat, List.getLast?_append_of_ne_nil] at hend
          · exact absurd hend hlast
          · exact List.cons_ne_nil 34 k

structure Blank where
  bytes : Bytes
  blank : ∀ b ∈ bytes, b = 32 ∨ b = 9 ∨ b = 10 ∨ b = 13

def Blank.empty : Blank := ⟨[], fun _ h => absurd h List.not_mem_nil⟩

/-- An integer is written with its sign and without leading zeros. -/
inductive Value
  | string (cs : List Character)
  | integer (negative : Bool) (magnitude : Nat)

def Value.text : Value → Bytes
  | string cs => quoted cs
  | integer negative magnitude => (if negative then [45] else []) ++ decimal magnitude

/-- The integer a value is, if it is one. -/
def Value.toInt? : Value → Option Int
  | string _ => none
  | integer negative magnitude => some (if negative then -(magnitude : Int) else magnitude)

structure Member where
  beforeKey : Blank
  key : List Character
  afterKey : Blank
  beforeValue : Blank
  value : Value
  afterValue : Blank

def Member.compact (key : List Character) (value : Value) : Member :=
  ⟨.empty, key, .empty, .empty, value, .empty⟩

def Member.tail (m : Member) : Bytes :=
  m.afterKey.bytes ++ 58 :: m.beforeValue.bytes ++ m.value.text ++ m.afterValue.bytes

def Member.text (m : Member) : Bytes := m.beforeKey.bytes ++ quoted m.key ++ m.tail

def Member.Named (m : Member) (k : Bytes) : Prop := decode m.key = some k

/-- `inside` is what stands between the braces of an object without members. -/
structure Object where
  leading : Blank
  members : List Member
  inside : Blank
  trailing : Blank

namespace Object

def compact (members : List Member) : Object := ⟨.empty, members, .empty, .empty⟩

def inner (o : Object) : Bytes :=
  match o.members with
  | [] => o.inside.bytes
  | m :: ms => m.text ++ ms.flatMap fun m => 44 :: m.text

def text (o : Object) : Bytes := o.leading.bytes ++ 123 :: o.inner ++ 125 :: o.trailing.bytes

def Distinct (o : Object) : Prop := o.members.Pairwise fun m m' => ∀ k, m.Named k → ¬m'.Named k

/-- What stands before the key of a member behind others. -/
def upTo (o : Object) (before : List Member) (m : Member) : Bytes :=
  o.leading.bytes ++ 123 :: (before.flatMap fun m => m.text ++ [44]) ++ m.beforeKey.bytes

theorem compact_text (key : List Character) (value : Value) :
    (compact [.compact key value]).text = 123 :: quoted key ++ 58 :: value.text ++ [125] := by
  simp [compact, text, inner, Member.compact, Member.text, Member.tail, Blank.empty]

theorem commas_append (ms : List Member) (rest : Bytes) :
    (ms.flatMap fun m => 44 :: m.text) ++ 44 :: rest =
      44 :: ((ms.flatMap fun m => m.text ++ [44]) ++ rest) := by
  induction ms with
  | nil => rfl
  | cons m ms ih =>
      simp only [List.flatMap_cons, List.append_assoc, ih, List.cons_append, List.nil_append]

theorem inner_split {o : Object} {before after : List Member} {m : Member}
    (h : o.members = before ++ m :: after) :
    o.inner = (before.flatMap fun m => m.text ++ [44]) ++
      (m.text ++ after.flatMap fun m => 44 :: m.text) := by
  unfold inner
  rw [h]
  cases before with
  | nil => rfl
  | cons first before =>
      change first.text ++ (before ++ m :: after).flatMap _ = _
      rw [List.flatMap_append, List.flatMap_cons, List.cons_append, commas_append,
        List.flatMap_cons, List.append_assoc, List.append_assoc]
      rfl

theorem behind_value (blank : Blank) (after : List Member) (rest : Bytes) :
    ∀ b ∈ (blank.bytes ++ ((after.flatMap fun m => 44 :: m.text) ++ 125 :: rest)).head?,
      isDigit b = false := by
  obtain ⟨bytes, hblank⟩ := blank
  intro b hb
  cases bytes with
  | cons b' bs =>
      cases hb
      rcases hblank b List.mem_cons_self with rfl | rfl | rfl | rfl <;> rfl
  | nil =>
      cases after with
      | nil =>
          cases hb
          rfl
      | cons m ms =>
          cases hb
          rfl

theorem text_split {o : Object} {before after : List Member} {m : Member}
    (h : o.members = before ++ m :: after) :
    ∃ rest, o.text = o.upTo before m ++ (quoted m.key ++ (m.afterKey.bytes ++
      58 :: (m.beforeValue.bytes ++ (m.value.text ++ rest)))) ∧
      ∀ b ∈ rest.head?, isDigit b = false := by
  refine ⟨_, ?_, behind_value m.afterValue after o.trailing.bytes⟩
  unfold text upTo
  rw [inner_split h, Member.text, Member.tail]
  simp only [List.append_assoc, List.cons_append]

theorem eq_of_named {o : Object} (hdistinct : o.Distinct) {m m' : Member} {k : Bytes}
    (hm : m ∈ o.members) (hm' : m' ∈ o.members) (hk : m.Named k) (hk' : m'.Named k) : m = m' := by
  by_contra hne
  have hsymm : Std.Symm fun m m' : Member => ∀ k, m.Named k → ¬m'.Named k :=
    ⟨fun _ _ h k hk' hk => h k hk hk'⟩
  exact List.Pairwise.forall hdistinct hm hm' hne k hk hk'

theorem exists_named_iff {o : Object} (h : o.Distinct) {m : Member} {k : Bytes}
    (hm : m ∈ o.members) (hnamed : m.Named k) (P : Member → Prop) :
    (∃ m' ∈ o.members, m'.Named k ∧ P m') ↔ P m := by
  constructor
  · rintro ⟨m', hm', hnamed', hP⟩
    rwa [eq_of_named h hm' hm hnamed' hnamed] at hP
  · intro hP
    exact ⟨m, hm, hnamed, hP⟩

end Object

end EdgeMind.Framework.Json
