import EdgeMind.Framework.Bytes

/-!
# Lines and fields

`lines` is the sequence of strings that repeated `std::getline` calls deliver: the terminating
newline is dropped, and text after the last newline is a line of its own only if it is not empty.
`splitFirst` cuts a line at the first occurrence of a delimiter, and paragraphs are the runs of lines
between blank ones.
-/

namespace EdgeMind.Framework

/-- Everything `std::getline` delivers before it fails. -/
def lines : Bytes → List Bytes
  | [] => []
  | b :: bs =>
      if b = 10 then [] :: lines bs
      else match lines bs with
        | [] => [[b]]
        | l :: ls => (b :: l) :: ls

@[simp]
theorem lines_nil : lines [] = [] := rfl

theorem lines_newline (bs : Bytes) : lines (10 :: bs) = [] :: lines bs := by
  simp [lines]

theorem lines_terminated (l rest : Bytes) (h : (10 : UInt8) ∉ l) :
    lines (l ++ 10 :: rest) = l :: lines rest := by
  induction l with
  | nil => exact lines_newline rest
  | cons b l ih =>
      have hb : b ≠ 10 := fun he => h (by simp [he])
      have hl := ih (fun hm => h (by simp [hm]))
      rw [List.cons_append, lines, if_neg hb, hl]

theorem mem_of_mem_lines {bs l : Bytes} (h : l ∈ lines bs) : (10 : UInt8) ∉ l ∧ ∀ c ∈ l, c ∈ bs := by
  induction bs generalizing l with
  | nil => cases h
  | cons b bs ih =>
      have htail {l : Bytes} (h : l ∈ lines bs) : (10 : UInt8) ∉ l ∧ ∀ c ∈ l, c ∈ b :: bs :=
        ⟨(ih h).1, fun c hc => List.mem_cons_of_mem b ((ih h).2 c hc)⟩
      rw [lines] at h
      split at h
      · rcases List.mem_cons.mp h with rfl | h
        · simp
        · exact htail h
      · next hb =>
          have hnewline : (10 : UInt8) ≠ b := fun heq => hb heq.symm
          cases hlines : lines bs with
          | nil =>
              rw [hlines] at h
              rw [List.mem_singleton.mp h]
              simp [hnewline]
          | cons first rest =>
              rw [hlines] at h htail
              rcases List.mem_cons.mp h with rfl | h
              · obtain ⟨hfirst, hmem⟩ := htail List.mem_cons_self
                refine ⟨by simp [hnewline, hfirst], fun c hc => ?_⟩
                rcases List.mem_cons.mp hc with rfl | hc
                · exact List.mem_cons_self
                · exact hmem c hc
              · exact htail (List.mem_cons_of_mem first h)

theorem lines_unterminated {l : Bytes} (h : (10 : UInt8) ∉ l) (hne : l ≠ []) : lines l = [l] := by
  induction l with
  | nil => exact absurd rfl hne
  | cons b l ih =>
      rw [List.mem_cons, not_or] at h
      rw [lines, if_neg (Ne.symm h.1)]
      by_cases hl : l = []
      · subst hl
        rfl
      · rw [ih h.2 hl]

def unlines (ls : List Bytes) : Bytes := ls.flatMap (· ++ [10])

theorem unlines_cons (l : Bytes) (ls : List Bytes) : unlines (l :: ls) = (l ++ [10]) ++ unlines ls :=
  List.flatMap_cons

theorem lines_unlines_append {ls : List Bytes} (rest : Bytes) (h : ∀ l ∈ ls, (10 : UInt8) ∉ l) :
    lines (unlines ls ++ rest) = ls ++ lines rest := by
  induction ls with
  | nil => rfl
  | cons l ls ih =>
      rw [List.forall_mem_cons] at h
      rw [unlines_cons, List.append_assoc, List.append_assoc, List.singleton_append,
        lines_terminated _ _ h.1, ih h.2]
      rfl

theorem prefix_unlines {ls : List Bytes} {kept : Bytes} (hkept : kept <+: unlines ls)
    (hne : kept ≠ unlines ls) :
    ∃ whole next rest cut,
      ls = whole ++ next :: rest ∧ cut <+: next ∧ kept = unlines whole ++ cut := by
  induction ls generalizing kept with
  | nil => exact absurd (List.prefix_nil.mp hkept) hne
  | cons l ls ih =>
      rw [unlines_cons] at hkept hne
      have hfirst := List.prefix_or_prefix_of_prefix hkept (List.prefix_append (l ++ [10]) _)
      by_cases hline : l ++ [10] <+: kept
      · obtain ⟨kept, rfl⟩ := hline
        rw [List.prefix_append_right_inj] at hkept
        obtain ⟨whole, next, rest, cut, rfl, hcut, rfl⟩ := ih hkept fun h => hne (by rw [h])
        exact ⟨l :: whole, next, rest, cut, rfl, hcut, by rw [unlines_cons, ← List.append_assoc]⟩
      · rcases List.prefix_concat_iff.mp (hfirst.resolve_right hline) with rfl | hcut
        · exact absurd (List.prefix_refl _) hline
        · exact ⟨[], l, ls, kept, rfl, hcut, rfl⟩

/-- Cut at the first occurrence of a byte, which is dropped. -/
def splitFirst (c : UInt8) : Bytes → Option (Bytes × Bytes)
  | [] => none
  | b :: bs => if b = c then some ([], bs) else (splitFirst c bs).map fun kv => (b :: kv.1, kv.2)

theorem splitFirst_append (c : UInt8) (k v : Bytes) (h : c ∉ k) :
    splitFirst c (k ++ c :: v) = some (k, v) := by
  induction k with
  | nil => simp [splitFirst]
  | cons b k ih =>
      have hb : b ≠ c := fun he => h (by simp [he])
      have hk := ih (fun hm => h (by simp [hm]))
      rw [List.cons_append, splitFirst, if_neg hb, hk]
      rfl

theorem splitFirst_eq_some {c : UInt8} {l k v : Bytes} (h : splitFirst c l = some (k, v)) :
    l = k ++ c :: v := by
  induction l generalizing k v with
  | nil => cases h
  | cons b l ih =>
      rw [splitFirst] at h
      split at h
      · next hb =>
          cases h
          rw [hb]
          rfl
      · obtain ⟨⟨k, v⟩, hcut, heq⟩ := Option.map_eq_some_iff.mp h
        cases heq
        rw [ih hcut]
        rfl

/-- Fields in the order of a map that was assigned them, latest first, so that a lookup finds the
last assignment. -/
abbrev Fields := List (Bytes × Bytes)

def fieldLine (key value : Bytes) : Bytes := key ++ text "=" ++ value ++ text "\n"

theorem lines_fieldLine {key value : Bytes} (rest : Bytes) (hk : (10 : UInt8) ∉ key)
    (hv : (10 : UInt8) ∉ value) :
    lines (fieldLine key value ++ rest) = (key ++ 61 :: value) :: lines rest := by
  have hline : fieldLine key value ++ rest = (key ++ 61 :: value) ++ 10 :: rest := by
    have heq : text "=" = [61] := rfl
    have hnl : text "\n" = [10] := rfl
    simp only [fieldLine, heq, hnl, List.append_assoc, List.cons_append, List.nil_append]
  rw [hline, lines_terminated]
  rw [List.mem_append, List.mem_cons, not_or, not_or]
  exact ⟨hk, by decide, hv⟩

/-- The maximal runs of lines that are not blank, where `pending` has begun already. -/
def paragraphsFrom (pending : List Bytes) : List Bytes → List (List Bytes)
  | [] => if pending = [] then [] else [pending]
  | line :: rest =>
      if line = [] then (if pending = [] then [] else [pending]) ++ paragraphsFrom [] rest
      else paragraphsFrom (pending ++ [line]) rest

def paragraphs (ls : List Bytes) : List (List Bytes) := paragraphsFrom [] ls

theorem paragraphsFrom_flatten (pending ls : List Bytes) :
    (paragraphsFrom pending ls).flatten = pending ++ ls.filter (· ≠ []) := by
  induction ls generalizing pending with
  | nil =>
      unfold paragraphsFrom
      split
      · next h => simp [h]
      · simp
  | cons line rest ih =>
      unfold paragraphsFrom
      split
      · next h =>
          rw [List.flatten_append, ih]
          split
          · next hpending => simp [h, hpending]
          · simp [h]
      · next h => simp [ih, h]

theorem paragraphs_flatten (ls : List Bytes) : (paragraphs ls).flatten = ls.filter (· ≠ []) :=
  paragraphsFrom_flatten [] ls

theorem paragraphs_blocks {ls : List Bytes} (h : ∀ l ∈ ls, l ≠ [] ∧ (10 : UInt8) ∉ l) :
    paragraphs (lines (ls.flatMap (· ++ [10, 10]))) = ls.map ([·]) := by
  induction ls with
  | nil => rfl
  | cons l ls ih =>
      obtain ⟨⟨hne, hnewline⟩, hls⟩ := List.forall_mem_cons.mp h
      rw [List.flatMap_cons, List.append_assoc]
      change paragraphs (lines (l ++ 10 :: 10 :: ls.flatMap (· ++ [10, 10]))) = _
      rw [lines_terminated _ _ hnewline, lines_newline, paragraphs, paragraphsFrom, if_neg hne,
        paragraphsFrom, if_pos rfl, if_neg (by simp), List.map_cons]
      exact congrArg ([l] :: ·) (ih hls)

theorem paragraphsFrom_pending {pending : List Bytes} (h : pending ≠ []) (ls : List Bytes) :
    ∃ more rest, paragraphsFrom pending ls = (pending ++ more) :: rest := by
  induction ls generalizing pending with
  | nil => exact ⟨[], [], by rw [paragraphsFrom, if_neg h, List.append_nil]⟩
  | cons line tail ih =>
      unfold paragraphsFrom
      split
      · exact ⟨[], paragraphsFrom [] tail, by rw [List.append_nil]; rfl⟩
      · obtain ⟨more, rest, heq⟩ := ih (List.append_ne_nil_of_left_ne_nil h [line])
        exact ⟨line :: more, rest, by rw [heq, List.append_assoc]; rfl⟩

end EdgeMind.Framework
