import EdgeMind.Api.ModelListing
import EdgeMind.Dashboard.Json
import EdgeMind.Framework.Search

/-!
# The models of the dashboard

The dashboard takes the listing of the registry apart again, line by line, and prints an object for
each line that has the shape of one. Names and architectures come from the model files and stand in
the listing as they are: what the dashboard shows is the registry exactly if none of them holds what
the shape of a line is recognised by.
-/

namespace EdgeMind

open Framework

namespace Dashboard

structure ModelRow where
  modelId : Bytes
  name : Bytes
  architecture : Bytes
  quantization : Bytes
  verification : Bytes
deriving DecidableEq

def firstWord (line : Bytes) : Option Bytes :=
  let word := (line.dropWhile isSpace).takeWhile fun c => ¬isSpace c
  if word = [] then none else some word

/-- One line, unless it is skipped. -/
def modelRow (line : Bytes) : Option ModelRow := do
  let id ← firstWord line
  let sep ← find (text "  ") line 0
  let bracket ← find (text "  [") line (sep + 2)
  let name := substr line (sep + 2) (some (bracket - (sep + 2)))
  let close ← rfind (text "]  ") line
  guard ¬(close ≤ bracket + 3)
  let attrs := substr line (bracket + 3) (some (close - (bracket + 3)))
  let mid ← find (text "  ") attrs 0
  return {
    modelId := id
    name
    architecture := substr attrs 0 (some mid)
    quantization := substr attrs (mid + 2) none
    verification := substr line (close + 3) none }

def modelObject (row : ModelRow) : Bytes :=
  text "\x7b\"model_id\":" ++ jsonString row.modelId ++ text ",\"name\":" ++ jsonString row.name ++
    text ",\"architecture\":" ++ jsonString row.architecture ++ text ",\"quantization\":" ++
    jsonString row.quantization ++ text ",\"verification\":" ++ jsonString row.verification ++
    text "\x7d"

def modelObjects : List ModelRow → Bytes
  | [] => []
  | [row] => modelObject row
  | row :: rows => modelObject row ++ text "," ++ modelObjects rows

def modelArray (rows : List ModelRow) : Bytes := text "[" ++ modelObjects rows ++ text "]"

def modelsAsJson (report : Bytes) : Bytes := modelArray ((lines report).filterMap modelRow)

/-- The listing as the dashboard asks for it, up to the first NUL. -/
def registryReport (registry : FileSystem) (path : Bytes) : Bytes :=
  let n := (Api.listModels registry (some path) 0).1
  if n = 0 then [] else Api.cString (Api.listModels registry (some path) (n + 1)).2

theorem modelObject_append_inj {row row' : ModelRow} {rest rest' : Bytes}
    (h : modelObject row ++ rest = modelObject row' ++ rest') : row = row' ∧ rest = rest' := by
  have hcut (s x y : Bytes) (hxy : s ++ x = s ++ y) : x = y := List.append_cancel_left hxy
  simp only [modelObject, List.append_assoc] at h
  obtain ⟨hid, h⟩ := jsonString_append_inj (hcut _ _ _ h)
  obtain ⟨hname, h⟩ := jsonString_append_inj (hcut _ _ _ h)
  obtain ⟨harchitecture, h⟩ := jsonString_append_inj (hcut _ _ _ h)
  obtain ⟨hquantization, h⟩ := jsonString_append_inj (hcut _ _ _ h)
  obtain ⟨hverification, h⟩ := jsonString_append_inj (hcut _ _ _ h)
  refine ⟨?_, hcut _ _ _ h⟩
  cases row
  cases row'
  simp_all

def modelRest : List ModelRow → Bytes
  | [] => text "]"
  | row :: rows => text "," ++ (modelObjects (row :: rows) ++ text "]")

theorem modelObjects_cons (row : ModelRow) (rows : List ModelRow) :
    modelObjects (row :: rows) ++ text "]" = modelObject row ++ modelRest rows := by
  cases rows with
  | nil => rfl
  | cons next rows => simp [modelObjects, modelRest]

theorem modelObject_ne (row : ModelRow) (rest : Bytes) : modelObject row ++ rest ≠ text "]" := by
  intro h
  simp only [modelObject, List.append_assoc] at h
  exact absurd (List.cons.inj h).1 (by decide)

theorem modelObjects_injective {rows rows' : List ModelRow}
    (h : modelObjects rows ++ text "]" = modelObjects rows' ++ text "]") : rows = rows' := by
  induction rows generalizing rows' with
  | nil =>
      cases rows' with
      | nil => rfl
      | cons row' rows' =>
          rw [modelObjects_cons] at h
          exact absurd h.symm (modelObject_ne row' _)
  | cons row rows ih =>
      cases rows' with
      | nil =>
          rw [modelObjects_cons] at h
          exact absurd h (modelObject_ne row _)
      | cons row' rows' =>
          rw [modelObjects_cons, modelObjects_cons] at h
          obtain ⟨hrow, hrest⟩ := modelObject_append_inj h
          rw [hrow]
          cases rows with
          | nil =>
              cases rows' with
              | nil => rfl
              | cons => exact absurd (List.cons.inj hrest).1 (by decide)
          | cons =>
              cases rows' with
              | nil => exact absurd (List.cons.inj hrest).1 (by decide)
              | cons => rw [ih (List.append_cancel_left hrest)]

theorem modelArray_injective : Function.Injective modelArray := by
  intro rows rows' h
  rw [modelArray, modelArray, List.append_assoc, List.append_assoc] at h
  exact modelObjects_injective (List.append_cancel_left h)

def rowLine (row : ModelRow) : Bytes :=
  row.modelId ++ text "  " ++ row.name ++ text "  [" ++ row.architecture ++ text "  " ++
    row.quantization ++ text "]  " ++ row.verification

def entryRow (entry : RegistryEntry) : ModelRow where
  modelId := entry.modelId
  name := Api.shownName entry
  architecture := Api.shownArchitecture entry
  quantization := Api.shownQuantization entry
  verification := verificationStatusMessage entry.verificationStatus

theorem listingLine_eq (entry : RegistryEntry) :
    Api.listingLine entry = rowLine (entryRow entry) ++ [10] := rfl

/-- A name without the opening of the attributes, and an architecture that ends where two blanks
begin, none with a newline or a NUL. -/
structure Recognised (name architecture : Bytes) : Prop where
  name_line : (10 : UInt8) ∉ name ∧ (0 : UInt8) ∉ name
  name_bracket : ¬text "  [" <:+: name
  architecture_line : (10 : UInt8) ∉ architecture ∧ (0 : UInt8) ∉ architecture
  architecture_blanks : ¬text "  " <:+: architecture ++ text " "

theorem modelRow_recognised {line : Bytes} {row : ModelRow} (h : modelRow line = some row)
    (hnewline : (10 : UInt8) ∉ line) (hnul : (0 : UInt8) ∉ line) :
    Recognised row.name row.architecture := by
  unfold modelRow at h
  simp only [Option.bind_eq_bind, Option.bind_eq_some_iff, Option.pure_def] at h
  obtain ⟨id, -, sep, -, bracket, hbracket, close, -, -, -, mid, hmid, hrow⟩ := h
  cases hrow
  obtain ⟨name, after, hfront, hlength, hbracket⟩ := find_eq_some hbracket (by decide)
  obtain ⟨architecture, quantization, hattrs, hmidlength, hblanks⟩ := find_eq_some hmid (by decide)
  have hname : substr line (sep + 2) (some (bracket - (sep + 2))) = name := by
    rw [substr, hfront, ← hlength, List.append_assoc, List.take_left]
  have harchitecture : substr (substr line (bracket + 3) (some (close - (bracket + 3)))) 0
      (some mid) = architecture := by
    rw [Nat.sub_zero] at hmidlength
    rw [substr, hattrs, ← hmidlength, List.append_assoc, List.take_left]
  have hmem {c : UInt8} {s : Bytes} {pos count : Nat} (hc : c ∈ substr s pos (some count)) :
      c ∈ s :=
    List.mem_of_mem_drop (List.mem_of_mem_take hc)
  exact {
    name_line := ⟨fun hc => hnewline (hmem hc), fun hc => hnul (hmem hc)⟩
    name_bracket := fun hoccurs =>
      hbracket (hname ▸ hoccurs.trans (List.prefix_append _ _).isInfix)
    architecture_line := ⟨fun hc => hnewline (hmem (hmem hc)), fun hc => hnul (hmem (hmem hc))⟩
    architecture_blanks := fun hoccurs => hblanks (harchitecture ▸ hoccurs) }

private theorem space_notMem {word : Bytes} (h : ∀ c ∈ word, isSpace c = false) :
    (32 : UInt8) ∉ word := by
  intro hmem
  cases h 32 hmem

theorem firstWord_append {word : Bytes} (rest : Bytes) (hne : word ≠ [])
    (hword : ∀ c ∈ word, isSpace c = false) : firstWord (word ++ 32 :: rest) = some word := by
  have hdrop : (word ++ 32 :: rest).dropWhile isSpace = word ++ 32 :: rest := by
    obtain ⟨c, word, rfl⟩ := List.exists_cons_of_ne_nil hne
    exact List.dropWhile_cons_of_neg (by simp [hword])
  have htake : (word ++ 32 :: rest).takeWhile (fun c => ¬isSpace c) = word := by
    rw [List.takeWhile_append_of_pos (by simpa using hword)]
    exact List.append_right_eq_self.mpr rfl
  rw [firstWord, hdrop, htake, if_neg hne]

private theorem blanks_not_in_word {word : Bytes} (h : (32 : UInt8) ∉ word) :
    ¬text "  " <:+: word ++ [32] := by
  intro hoccurs
  have hcount := hoccurs.sublist.count_le 32
  rw [List.count_append, List.count_eq_zero_of_not_mem h] at hcount
  exact absurd hcount (by decide)

theorem modelRow_rowLine {row : ModelRow} (hid : row.modelId ≠ [])
    (hword : ∀ c ∈ row.modelId, isSpace c = false) (h : Recognised row.name row.architecture)
    (hverification : (93 : UInt8) ∉ row.verification) : modelRow (rowLine row) = some row := by
  let attrs := row.architecture ++ text "  " ++ row.quantization
  let rest := attrs ++ (text "]  " ++ row.verification)
  let front := row.modelId ++ text "  "
  let opened := front ++ row.name ++ text "  ["
  have hline : rowLine row = front ++ (row.name ++ text "  [" ++ rest) := by
    simp only [rowLine, front, rest, attrs, List.append_assoc]
  have hopened : rowLine row = opened ++ rest := by
    simp only [hline, opened, List.append_assoc]
  have hclosed : rowLine row = opened ++ attrs ++ text "]  " ++ row.verification := by
    simp only [hopened, rest, List.append_assoc]
  have hfrontLength : front.length = row.modelId.length + 2 := by
    rw [List.length_append]
    rfl
  have hopenedLength : opened.length = row.name.length + front.length + 3 := by
    simp only [opened, List.length_append]
    rw [show (text "  [").length = 3 from rfl]
    omega
  have hsep : find (text "  ") (rowLine row) 0 = some row.modelId.length := by
    have hfind := @find_append (text "  ") [] row.modelId (row.name ++ text "  [" ++ rest)
      (blanks_not_in_word (space_notMem hword)) (by decide)
    rw [hline]
    exact hfind
  have hbracket : find (text "  [") (rowLine row) front.length =
      some (row.name.length + front.length) := by
    rw [hline]
    refine find_append front rest (fun hoccurs => ?_) (by decide)
    exact h.name_bracket (infix_of_infix_append (c := 91) rfl (by decide) hoccurs)
  have hclose : rfind (text "]  ") (rowLine row) = some (opened ++ attrs).length := by
    rw [hclosed]
    refine rfind_append (opened ++ attrs) (fun hoccurs => ?_) (by decide)
    have hmem : (93 : UInt8) ∈ text "  " ++ row.verification := hoccurs.subset (by decide)
    rcases List.mem_append.mp hmem with hmem | hmem
    · exact absurd hmem (by decide)
    · exact hverification hmem
  have hmid : find (text "  ") attrs 0 = some row.architecture.length :=
    find_append [] row.quantization h.architecture_blanks (by decide)
  have hname : substr (rowLine row) front.length (some row.name.length) = row.name := by
    rw [hline, List.append_assoc row.name]
    exact substr_middle front row.name _
  have hattrs : substr (rowLine row) opened.length (some attrs.length) = attrs := by
    rw [hopened]
    exact substr_middle opened attrs _
  have hverdict : substr (rowLine row) ((opened ++ attrs).length + 3) none = row.verification := by
    have hlength : (opened ++ attrs ++ text "]  ").length = (opened ++ attrs).length + 3 := by
      rw [List.length_append]
      rfl
    rw [hclosed, ← hlength]
    exact substr_end _ _
  have hfirst : firstWord (rowLine row) = some row.modelId := by
    have hword := firstWord_append (32 :: (row.name ++ text "  [" ++ rest)) hid hword
    rw [hline, List.append_assoc]
    exact hword
  have harchitecture : substr attrs 0 (some row.architecture.length) = row.architecture := by
    rw [show attrs = [] ++ (row.architecture ++ (text "  " ++ row.quantization)) from
      List.append_assoc _ _ _]
    exact substr_middle [] row.architecture _
  have hquantization : substr attrs (row.architecture.length + 2) none = row.quantization := by
    have hlength : (row.architecture ++ text "  ").length = row.architecture.length + 2 := by
      rw [List.length_append]
      rfl
    rw [← hlength]
    exact substr_end _ _
  have hcount : row.name.length + front.length - front.length = row.name.length :=
    Nat.add_sub_cancel _ _
  have hopen : ¬(opened ++ attrs).length ≤ opened.length := by
    have hattrs : attrs.length = row.architecture.length + 2 + row.quantization.length := by
      rw [List.length_append, List.length_append]
      rfl
    rw [List.length_append]
    omega
  have hrest : (opened ++ attrs).length - opened.length = attrs.length := by
    rw [List.length_append, Nat.add_sub_cancel_left]
  unfold modelRow
  simp only [Option.bind_eq_bind, Option.bind_some, hfirst, hsep, ← hfrontLength, hbracket, hcount,
    hname, hclose, ← hopenedLength, hopen, not_false_eq_true, guard, if_true, hrest, hattrs, hmid,
    harchitecture, hquantization, hverdict, Option.pure_def]

theorem cString_append_nul (s : Bytes) : Api.cString (s ++ [0]) = Api.cString s := by
  rw [Api.cString, Api.cString, List.takeWhile_append]
  split
  · next hlength =>
      rw [(List.takeWhile_prefix _).eq_of_length hlength]
      exact List.append_nil s
  · rfl

theorem registryReport_eq {registry : FileSystem} {path : Bytes}
    (h : Api.ListableRegistry (Api.cString path) registry) :
    registryReport registry path =
      Api.cString (Api.listing (ModelRegistry.load registry (Api.cString path)).2) := by
  have hlist (bufSize : Nat) : Api.listModels registry (some path) bufSize =
      ((Api.listing (ModelRegistry.load registry (Api.cString path)).2).length,
        Api.copyOut (Api.listing (ModelRegistry.load registry (Api.cString path)).2) bufSize) := by
    change (if (ModelRegistry.load registry (Api.cString path)).1 ≠ .ok ∨
      (ModelRegistry.load registry (Api.cString path)).2 = [] then _ else _) = _
    split
    · next hempty =>
        have hnil : (ModelRegistry.load registry (Api.cString path)).2 = [] := by
          rcases hempty with hnot | hnil
          · rw [h.stored.resolve_left hnot]
          · exact hnil
        rw [hnil]
        rfl
    · rfl
  generalize Api.listing (ModelRegistry.load registry (Api.cString path)).2 = report at hlist ⊢
  rw [registryReport, hlist, hlist]
  dsimp only
  split
  · next hlength => rw [List.length_eq_zero_iff.mp hlength, Api.cString, List.takeWhile_nil]
  · rw [Api.copyOut, if_pos (Nat.succ_pos _), Nat.add_sub_cancel, List.take_length,
      cString_append_nul]

private theorem notMem_rowLine {row : ModelRow} {c : UInt8} (hid : c ∉ row.modelId)
    (hname : c ∉ row.name) (harchitecture : c ∉ row.architecture)
    (hquantization : c ∉ row.quantization) (hverification : c ∉ row.verification)
    (hc : c ∉ text " []") : c ∉ rowLine row := by
  have hshape {s : Bytes} (hs : s ⊆ text " []") : c ∉ s := fun hmem => hc (hs hmem)
  simp only [rowLine, List.mem_append, not_or]
  exact ⟨⟨⟨⟨⟨⟨⟨⟨hid, hshape (by decide)⟩, hname⟩, hshape (by decide)⟩, harchitecture⟩,
    hshape (by decide)⟩, hquantization⟩, hshape (by decide)⟩, hverification⟩

theorem rowLine_notMem {entry : RegistryEntry} (h : Api.Listable entry)
    (hrow : Recognised (Api.shownName entry) (Api.shownArchitecture entry)) :
    (10 : UInt8) ∉ rowLine (entryRow entry) ∧ (0 : UInt8) ∉ rowLine (entryRow entry) := by
  have hid : Api.Printable entry.modelId := fun c hc => UInt8.le_of_lt (h.word.2 c hc)
  have hquantization := h.shownQuantization.notMem
  have hstatus := (Api.status_printable entry.verificationStatus).1.notMem
  exact ⟨notMem_rowLine hid.notMem.1 hrow.name_line.1 hrow.architecture_line.1 hquantization.1
      hstatus.1 (by decide),
    notMem_rowLine hid.notMem.2 hrow.name_line.2 hrow.architecture_line.2 hquantization.2 hstatus.2
      (by decide)⟩

theorem modelRow_entry {entry : RegistryEntry} (h : Api.Listable entry)
    (hrow : Recognised (Api.shownName entry) (Api.shownArchitecture entry)) :
    modelRow (rowLine (entryRow entry)) = some (entryRow entry) := by
  refine modelRow_rowLine h.word.1 (fun c hc => ?_) hrow (Api.status_printable _).2
  have hlt := UInt8.lt_iff_toNat_lt.mp (h.word.2 c hc)
  simp only [isSpace, Bool.or_eq_false_iff, decide_eq_false_iff_not, Bool.and_eq_false_iff,
    ← UInt8.toNat_inj, UInt8.le_iff_toNat_le]
  change 32 < c.toNat at hlt
  change ¬c.toNat = 32 ∧ (¬9 ≤ c.toNat ∨ ¬c.toNat ≤ 13)
  omega

theorem lines_listing {entries : List RegistryEntry}
    (h : ∀ e ∈ entries, (10 : UInt8) ∉ rowLine (entryRow e)) :
    lines (Api.listing entries) = entries.map fun e => rowLine (entryRow e) := by
  induction entries with
  | nil => rfl
  | cons e entries ih =>
      rw [List.forall_mem_cons] at h
      rw [Api.listing, List.flatMap_cons, listingLine_eq, List.append_assoc, List.singleton_append,
        lines_terminated _ _ h.1, List.map_cons]
      exact congrArg _ (ih h.2)

theorem rows_eq_iff {entries : List RegistryEntry} (h : ∀ e ∈ entries, Api.Listable e) :
    (lines (Api.cString (Api.listing entries))).filterMap modelRow = entries.map entryRow ↔
      ∀ e ∈ entries, Recognised (Api.shownName e) (Api.shownArchitecture e) := by
  constructor
  · intro hrows e he
    have hmem := List.mem_map_of_mem (f := entryRow) he
    rw [← hrows] at hmem
    obtain ⟨line, hline, hrow⟩ := List.mem_filterMap.mp hmem
    obtain ⟨hnewline, hsub⟩ := mem_of_mem_lines hline
    refine modelRow_recognised hrow hnewline fun hnul => ?_
    have hzero := List.mem_takeWhile_imp (hsub 0 hnul)
    exact absurd hzero (by decide)
  · intro hrecognised
    have hlines (e : RegistryEntry) (he : e ∈ entries) := rowLine_notMem (h e he) (hrecognised e he)
    have hzero : (0 : UInt8) ∉ Api.listing entries := by
      intro hmem
      obtain ⟨e, he, hmem⟩ := List.mem_flatMap.mp hmem
      rw [listingLine_eq] at hmem
      rcases List.mem_append.mp hmem with hmem | hmem
      · exact (hlines e he).2 hmem
      · exact absurd hmem (by decide)
    rw [Api.cString_of_notMem hzero, lines_listing fun e he => (hlines e he).1, List.filterMap_map,
      ← List.filterMap_eq_map]
    exact List.filterMap_congr fun e he => modelRow_entry (h e he) (hrecognised e he)

/-- Over every run of imports that starts without a registry file, whatever becomes of their saves,
the dashboard shows one object for every entry, in order and as recorded, exactly if every name and
architecture is recognised. -/
theorem models_eq_iff (registry : FileSystem) (path : Bytes)
    (habsent : registry (Api.cString path) = .absent) (calls : List (ImportCall × SaveOutcome)) :
    let imported := final (Api.importStep (Api.cString path)) registry calls
    let entries := (ModelRegistry.load imported (Api.cString path)).2
    modelsAsJson (registryReport imported path) = modelArray (entries.map entryRow) ↔
      ∀ e ∈ entries, Recognised (Api.shownName e) (Api.shownArchitecture e) := by
  intro imported entries
  have hlistable := Api.listableRegistry_run habsent calls
  rw [modelsAsJson, registryReport_eq hlistable, modelArray_injective.eq_iff]
  exact rows_eq_iff hlistable.entries

/-- A registry after one import of a model without a name, which is listed under its path. -/
def oneImported (modelPath : Path) : FileSystem :=
  final (Api.importStep (text "r")) (fun _ => .absent)
    [(ImportCall.sampleImport modelPath [], .ok)]

def oneEntry (modelPath : Path) : RegistryEntry :=
  let c := ImportCall.sampleImport modelPath []
  ModelRegistry.importedEntry c.models modelPath [] c.verify c.now

theorem oneImported_load {modelPath : Path}
    (h : (ImportCall.sampleImport modelPath []).verify.identity.computed = true) :
    ModelRegistry.load (oneImported modelPath) (text "r") = (.ok, [oneEntry modelPath]) := by
  let c := ImportCall.sampleImport modelPath []
  have hload := ModelRegistry.importModel_load c.models (fun _ => .absent) (text "r") modelPath []
    c.now .ok
  have hentry : ModelRegistry.recordedEntry c.models (fun _ => .absent) (text "r") modelPath [] c.now
      .ok = some (oneEntry modelPath) := by
    unfold ModelRegistry.recordedEntry
    exact if_pos ⟨h, by decide, rfl⟩
  rw [hentry] at hload
  exact hload

theorem models_eq_iff_oneImported :
    modelsAsJson (registryReport (oneImported (text "a.gguf")) (text "r")) =
      modelArray [entryRow (oneEntry (text "a.gguf"))] := by
  let calls := [(ImportCall.sampleImport (text "a.gguf") [], SaveOutcome.ok)]
  have hentries : (ModelRegistry.load (final (Api.importStep (Api.cString (text "r")))
      (fun _ => .absent) calls) (Api.cString (text "r"))).2 = [oneEntry (text "a.gguf")] :=
    congrArg Prod.snd (oneImported_load (by decide +kernel))
  have hname : Api.shownName (oneEntry (text "a.gguf")) = text "a.gguf" := by decide +kernel
  have harchitecture : Api.shownArchitecture (oneEntry (text "a.gguf")) =
      text "unknown-architecture" := by decide +kernel
  have hmodels := (models_eq_iff (fun _ => .absent) (text "r") rfl calls).mpr (by
    rw [hentries]
    intro e he
    rw [List.mem_singleton.mp he, hname, harchitecture]
    exact ⟨by decide, by decide, by decide, by decide⟩)
  rw [hentries] at hmodels
  exact hmodels

/-- The name is taken to end where a bracket follows two blanks. -/
theorem models_bracket :
    Api.shownName (oneEntry (text "old  [v1]/a.gguf")) = text "old  [v1]/a.gguf" ∧
      modelsAsJson (registryReport (oneImported (text "old  [v1]/a.gguf")) (text "r")) ≠
        modelArray [entryRow (oneEntry (text "old  [v1]/a.gguf"))] := by
  have hlistable : Api.ListableRegistry (Api.cString (text "r"))
      (oneImported (text "old  [v1]/a.gguf")) :=
    @Api.listableRegistry_run _ (fun _ => .absent) rfl _
  have hname : Api.shownName (oneEntry (text "old  [v1]/a.gguf")) = text "old  [v1]/a.gguf" := by
    decide +kernel
  have hentries : (ModelRegistry.load (oneImported (text "old  [v1]/a.gguf"))
      (Api.cString (text "r"))).2 = [oneEntry (text "old  [v1]/a.gguf")] :=
    congrArg Prod.snd (oneImported_load (by decide +kernel))
  have hrows := rows_eq_iff hlistable.entries
  rw [hentries] at hrows
  refine ⟨hname, fun hmodels => ?_⟩
  rw [modelsAsJson, registryReport_eq hlistable, hentries] at hmodels
  have hrecognised := hrows.mp (modelArray_injective hmodels) _ List.mem_cons_self
  rw [hname] at hrecognised
  exact hrecognised.name_bracket (by decide)

end Dashboard

end EdgeMind
