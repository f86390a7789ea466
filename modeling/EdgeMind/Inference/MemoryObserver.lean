import EdgeMind.Framework.Decimal
import EdgeMind.Framework.Lines

/-!
# The memory of the system

The observer reads the total and the available memory from the report of the kernel. Of every report that
the kernel can write, in whatever order its entries stand, it gives both numbers as they are written, or
nothing at all.
-/

namespace EdgeMind

open Framework

structure SystemMemoryInfo where
  available : Bool := false
  totalBytes : UInt64 := 0
  availableBytes : UInt64 := 0
deriving DecidableEq

namespace MemoryObserver

/-- The first word of a line and the number behind it, 0 if there is none. -/
def readEntry (line : Bytes) : Bytes × UInt64 :=
  let s := line.dropWhile isSpace
  (s.takeWhile fun b => !isSpace b, UInt64.ofNat (strtoull (s.dropWhile fun b => !isSpace b)).value)

/-- The loop over the lines, with what has been found; it ends as soon as both are. -/
def scan : List Bytes → Option UInt64 → Option UInt64 → Option UInt64 × Option UInt64
  | [], total, available => (total, available)
  | line :: rest, total, available =>
      let (key, valueKb) := readEntry line
      let total := if key = text "MemTotal:" then some valueKb else total
      let available :=
        if key ≠ text "MemTotal:" ∧ key = text "MemAvailable:" then some valueKb else available
      if total.isSome ∧ available.isSome then (total, available) else scan rest total available

/-- `meminfo` is the report, if it can be opened. -/
def observeSystemMemory (meminfo : Option Bytes) : SystemMemoryInfo :=
  match meminfo with
  | none => {}
  | some meminfo =>
      match scan (lines meminfo) none none with
      | (some totalKb, some availableKb) =>
          { available := true, totalBytes := totalKb * 1024, availableBytes := availableKb * 1024 }
      | _ => {}

/-- An entry: a name without white space, a number behind some blanks, and what stands behind it up to the
end of the line, which is " kB" or nothing as a rule. -/
structure Entry where
  name : Bytes
  blanks : Nat
  number : Nat
  unit : Bytes
  word : ∀ b ∈ name, isSpace b = false
  bounded : number < 2 ^ 64
  ended : unit.head?.all (fun b => !isDigit b) = true
  single : (10 : UInt8) ∉ unit

def Entry.line (e : Entry) : Bytes :=
  e.name ++ text ":" ++ List.replicate (e.blanks + 1) 32 ++ decimal e.number ++ e.unit

def lookup (name : Bytes) (entries : List Entry) : Option UInt64 :=
  (entries.find? fun e => e.name = name).map fun e => UInt64.ofNat e.number

theorem readEntry_line (e : Entry) : readEntry e.line = (e.name ++ text ":", UInt64.ofNat e.number) := by
  have hword : ∀ b ∈ e.name ++ text ":", isSpace b = false := by
    intro b hb
    rcases List.mem_append.mp hb with hb | hb
    · exact e.word b hb
    · rw [List.mem_singleton.mp hb]
      decide
  have hstart : e.line.dropWhile isSpace = e.line := by
    obtain ⟨b, bs, hcons⟩ : ∃ b bs, e.name ++ text ":" = b :: bs :=
      List.exists_cons_of_ne_nil (List.append_ne_nil_of_right_ne_nil _ (by decide))
    have hb := hword b (by rw [hcons]; exact List.mem_cons_self)
    rw [Entry.line, hcons]
    exact List.dropWhile_cons_of_neg (by rw [hb]; exact Bool.false_ne_true)
  have hshape : e.line = (e.name ++ text ":") ++
      (32 :: (List.replicate e.blanks 32 ++ (decimal e.number ++ e.unit))) := by
    rw [Entry.line, List.replicate_succ]
    simp
  have hkey : ∀ b ∈ e.name ++ text ":", (!isSpace b) = true := by
    intro b hb
    rw [hword b hb]
    rfl
  have hspaces : ∀ c ∈ (32 :: List.replicate e.blanks 32 : Bytes), isSpace c = true := by
    intro c hc
    rw [← List.replicate_succ] at hc
    rw [List.eq_of_mem_replicate hc]
    decide
  have hunit : ∀ b ∈ e.unit.head?, isDigit b = false := by
    intro b hb
    have hended := e.ended
    rw [Option.mem_def.mp hb, Option.all_some] at hended
    simpa using hended
  have hnumber := strtoull_append hspaces e.bounded hunit
  unfold readEntry
  dsimp only
  rw [hstart, hshape, List.takeWhile_append_of_pos hkey, List.dropWhile_append_of_pos hkey]
  rw [List.takeWhile_cons_of_neg (by decide), List.dropWhile_cons_of_neg (by decide),
    List.append_nil, ← List.cons_append, hnumber]

theorem key_eq_iff (e : Entry) :
    (e.name ++ text ":" = text "MemTotal:" ↔ e.name = text "MemTotal") ∧
      (e.name ++ text ":" = text "MemAvailable:" ↔ e.name = text "MemAvailable") := by
  have htotal : text "MemTotal:" = text "MemTotal" ++ text ":" := by decide
  have havailable : text "MemAvailable:" = text "MemAvailable" ++ text ":" := by decide
  rw [htotal, havailable]
  exact ⟨List.append_left_inj _, List.append_left_inj _⟩

theorem lookup_cons (name : Bytes) (e : Entry) (entries : List Entry) :
    lookup name (e :: entries) =
      if e.name = name then some (UInt64.ofNat e.number) else lookup name entries := by
  rw [lookup, List.find?_cons]
  by_cases h : e.name = name <;> simp [h, lookup]

/-- What has been found once the entry has been read. -/
def Entry.found (e : Entry) (name : Bytes) (before : Option UInt64) : Option UInt64 :=
  if e.name = name then some (UInt64.ofNat e.number) else before

theorem scan_cons (e : Entry) (rest : List Bytes) (total available : Option UInt64) :
    let total' := e.found (text "MemTotal") total
    let available' := e.found (text "MemAvailable") available
    scan (e.line :: rest) total available =
      if total'.isSome ∧ available'.isSome then (total', available')
      else scan rest total' available' := by
  have hkeys := key_eq_iff e
  have hother : ¬e.name = text "MemTotal" ∧ e.name = text "MemAvailable" ↔
      e.name = text "MemAvailable" := by
    refine and_iff_right_of_imp fun h => ?_
    rw [h]
    decide
  rw [scan, readEntry_line]
  simp only [hkeys.1, hkeys.2, ne_eq, hother]
  rfl

theorem found_or_lookup {e : Entry} {entries : List Entry} {name : Bytes} {before : Option UInt64}
    (hbefore : before.isSome = true → name ∉ (e :: entries).map Entry.name) :
    (e.found name before).or (lookup name entries) = before.or (lookup name (e :: entries)) := by
  rw [lookup_cons, Entry.found]
  by_cases hname : e.name = name
  · cases before with
    | none => rw [if_pos hname, if_pos hname, Option.none_or, Option.some_or]
    | some _ => exact absurd (List.mem_map.mpr ⟨e, List.mem_cons_self, hname⟩) (hbefore rfl)
  · rw [if_neg hname, if_neg hname]

theorem found_notMem {e : Entry} {entries : List Entry} {name : Bytes} {before : Option UInt64}
    (hnodup : ((e :: entries).map Entry.name).Nodup)
    (hbefore : before.isSome = true → name ∉ (e :: entries).map Entry.name)
    (hfound : (e.found name before).isSome = true) : name ∉ entries.map Entry.name := by
  rw [List.map_cons, List.nodup_cons] at hnodup
  unfold Entry.found at hfound
  split at hfound
  · next hname => exact hname ▸ hnodup.1
  · exact fun hmem => hbefore hfound (List.mem_cons_of_mem _ hmem)

theorem scan_entries {entries : List Entry} (hnodup : (entries.map Entry.name).Nodup)
    {total available : Option UInt64}
    (htotal : total.isSome = true → text "MemTotal" ∉ entries.map Entry.name)
    (havailable : available.isSome = true → text "MemAvailable" ∉ entries.map Entry.name) :
    scan (entries.map Entry.line) total available =
      (total.or (lookup (text "MemTotal") entries),
        available.or (lookup (text "MemAvailable") entries)) := by
  induction entries generalizing total available with
  | nil => rw [List.map_nil, scan, lookup, lookup, List.find?_nil, List.find?_nil, Option.map_none,
      Option.or_none, Option.or_none]
  | cons e rest ih =>
      have hrest := ih (List.nodup_cons.mp hnodup).2 (found_notMem hnodup htotal)
        (found_notMem hnodup havailable)
      rw [← found_or_lookup htotal, ← found_or_lookup havailable, List.map_cons, scan_cons]
      split
      · next hboth =>
          rw [Option.or_of_isSome hboth.1, Option.or_of_isSome hboth.2]
      · exact hrest

theorem newline_notMem_line (e : Entry) : (10 : UInt8) ∉ e.line := by
  intro hmem
  simp only [Entry.line, List.mem_append] at hmem
  rcases hmem with (((hmem | hmem) | hmem) | hmem) | hmem
  · exact absurd (e.word 10 hmem) (by decide)
  · exact absurd hmem (by decide)
  · exact absurd (List.eq_of_mem_replicate hmem) (by decide)
  · exact newline_notMem_decimal e.number hmem
  · exact e.single hmem

/-- Of a report of the kernel, in whatever order its entries stand, the observer gives the total and the
available memory as they are written, in bytes modulo 2^64, if it has both, and else it gives none. -/
theorem observe_exact (entries : List Entry) (hnodup : (entries.map Entry.name).Nodup) :
    observeSystemMemory (some (unlines (entries.map Entry.line))) =
      match lookup (text "MemTotal") entries, lookup (text "MemAvailable") entries with
      | some totalKb, some availableKb =>
          { available := true, totalBytes := totalKb * 1024, availableBytes := availableKb * 1024 }
      | _, _ => {} := by
  have hlines : lines (unlines (entries.map Entry.line)) = entries.map Entry.line := by
    have hnewline : ∀ l ∈ entries.map Entry.line, (10 : UInt8) ∉ l := by
      intro l hl
      obtain ⟨e, -, rfl⟩ := List.mem_map.mp hl
      exact newline_notMem_line e
    have hsplit := lines_unlines_append [] hnewline
    rwa [List.append_nil, lines_nil, List.append_nil] at hsplit
  have hnone (name : Bytes) : (none : Option UInt64).isSome = true →
      name ∉ entries.map Entry.name := by
    intro h
    cases h
  have hscan := scan_entries hnodup (hnone _) (hnone _)
  rw [observeSystemMemory, hlines, hscan, Option.none_or, Option.none_or]
  cases lookup (text "MemTotal") entries with
  | none => rfl
  | some totalKb =>
      cases lookup (text "MemAvailable") entries with
      | none => rfl
      | some availableKb => rfl

def sampleEntry (name : Bytes) (number : Nat) (unit : Bytes) (hword : name.any isSpace = false)
    (hbounded : number < 2 ^ 64) (hended : unit.head?.all (fun b => !isDigit b) = true)
    (hsingle : (10 : UInt8) ∉ unit) : Entry :=
  ⟨name, 7, number, unit, fun b hb => eq_false_of_ne_true (List.any_eq_false.mp hword b hb), hbounded,
    hended, hsingle⟩

theorem observe_exact_sample :
    let entries := [
      sampleEntry (text "MemAvailable") 8000 (text " kB") (by decide) (by omega) (by decide) (by decide),
      sampleEntry (text "HugePages_Total") 5 [] (by decide) (by omega) (by decide) (by decide),
      sampleEntry (text "MemTotal") 16000 (text " kB") (by decide) (by omega) (by decide) (by decide)]
    observeSystemMemory (some (unlines (entries.map Entry.line))) =
      { available := true, totalBytes := 16384000, availableBytes := 8192000 } := by
  intro entries
  exact observe_exact entries (by decide)

end MemoryObserver

end EdgeMind
