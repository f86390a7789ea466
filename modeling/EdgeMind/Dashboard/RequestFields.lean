import EdgeMind.Dashboard.JsonText
import EdgeMind.Dashboard.Server

/-!
# Request fields as members of JSON objects

The fields of a request are found by a search for the quoted key and the next colon behind it, and the
strings in them are decoded without numbered characters. For a body that is an object, a field is the
member of that name wherever the first quoted key of the body is its key.
-/

namespace EdgeMind

open Framework Framework.Json

namespace Dashboard

theorem unescape_letter (e : Escape) : unescape e.letter = some e.meaning := by
  cases e <;> rfl

section Characters

variable (rest value : Bytes)

theorem parseStringBody_plain {b : UInt8} (h : 32 ≤ b ∧ b ≠ 34 ∧ b ≠ 92) :
    parseStringBody (b :: rest) value = parseStringBody rest (value ++ [b]) := by
  rw [parseStringBody.eq_def]
  dsimp only
  rw [if_neg h.2.1, if_pos h.2.2]

theorem parseStringBody_escape (e : Escape) (hlength : value.length < kMaxRequestBody) :
    parseStringBody (92 :: e.letter :: rest) value =
      parseStringBody rest (value ++ [e.meaning]) := by
  rw [parseStringBody, if_neg (by decide), if_neg (by decide), unescape_letter]
  dsimp only
  rw [if_neg]
  rw [List.length_append, List.length_singleton]
  omega

theorem parseStringBody_quote : parseStringBody (34 :: rest) value = some value := by
  rw [parseStringBody.eq_def]
  rfl

theorem parseStringBody_unicode : parseStringBody (92 :: 117 :: rest) value = none := by
  rw [parseStringBody, if_neg (by decide), if_neg (by decide)]
  rfl

end Characters

/-- A string without numbered characters is decoded up to its closing quote, if it is not too long. -/
theorem parseStringBody_decode {cs : List Character} (h : ∀ c ∈ cs, c.isUnicode = false)
    {s : Bytes} (hs : decode cs = some s) (rest : Bytes) {value : Bytes}
    (hlength : value.length + s.length ≤ kMaxRequestBody) :
    parseStringBody (textOf cs ++ 34 :: rest) value = some (value ++ s) := by
  induction cs generalizing value s with
  | nil =>
      cases hs
      rw [textOf_nil, List.nil_append, parseStringBody_quote, List.append_nil]
  | cons c cs ih =>
      obtain ⟨hc, hcs⟩ := List.forall_mem_cons.mp h
      rw [textOf_cons, List.append_assoc]
      cases c with
      | plain b hb =>
          rw [decode] at hs
          obtain ⟨t, ht, rfl⟩ := Option.map_eq_some_iff.mp hs
          rw [List.length_cons] at hlength
          change parseStringBody (b :: (textOf cs ++ 34 :: rest)) value = _
          rw [parseStringBody_plain _ _ hb, ih hcs ht, List.append_assoc]
          · rfl
          · rw [List.length_append, List.length_singleton]
            omega
      | escape e =>
          rw [decode] at hs
          obtain ⟨t, ht, rfl⟩ := Option.map_eq_some_iff.mp hs
          rw [List.length_cons] at hlength
          change parseStringBody (92 :: e.letter :: (textOf cs ++ 34 :: rest)) value = _
          rw [parseStringBody_escape _ _ _ (by omega), ih hcs ht, List.append_assoc]
          · rfl
          · rw [List.length_append, List.length_singleton]
            omega
      | unicode => cases hc

theorem parseStringBody_refuse {cs : List Character} (h : ∃ c ∈ cs, c.isUnicode = true)
    (rest value : Bytes) : parseStringBody (textOf cs ++ 34 :: rest) value = none := by
  induction cs generalizing value with
  | nil =>
      obtain ⟨c, hc, -⟩ := h
      cases hc
  | cons c cs ih =>
      rw [textOf_cons, List.append_assoc]
      have hrest (hc : c.isUnicode = false) : ∃ c ∈ cs, c.isUnicode = true := by
        obtain ⟨c', hmem, hunicode⟩ := h
        rcases List.mem_cons.mp hmem with rfl | hmem
        · cases hc.symm.trans hunicode
        · exact ⟨c', hmem, hunicode⟩
      cases c with
      | plain b hb => exact (parseStringBody_plain _ _ hb).trans (ih (hrest rfl) _)
      | escape e =>
          change parseStringBody (92 :: e.letter :: (textOf cs ++ 34 :: rest)) value = none
          rw [parseStringBody, if_neg (by decide), if_neg (by decide), unescape_letter]
          dsimp only
          split
          · rfl
          · exact ih (hrest rfl) _
      | unicode => exact parseStringBody_unicode _ _

def quotedKey (key : Bytes) : Bytes := text "\"" ++ key ++ text "\""

theorem Blank.dropWhile (b : Blank) {c : UInt8} (hc : isSpace c = false) (rest : Bytes) :
    (b.bytes ++ c :: rest).dropWhile isSpace = c :: rest := by
  have hspace : ∀ c ∈ b.bytes, isSpace c = true := by
    intro c hmem
    rcases b.blank c hmem with rfl | rfl | rfl | rfl <;> rfl
  rw [List.dropWhile_append_of_pos hspace, List.dropWhile_cons_of_neg (by simp [hc])]

theorem Value.text_cons (v : Value) : ∃ c bs, v.text = c :: bs ∧ isSpace c = false := by
  cases v with
  | string cs => exact ⟨34, _, rfl, rfl⟩
  | integer negative magnitude =>
      cases negative with
      | true => exact ⟨45, _, rfl, rfl⟩
      | false =>
          obtain ⟨b, bs, hd⟩ := List.exists_cons_of_ne_nil (decimal_ne_nil magnitude)
          exact ⟨b, bs, hd, digit_not_space (decimal_isDigit magnitude b (by simp [hd]))⟩

theorem memberText_member {o : Object} {before after : List Member} {m : Member} {k : Bytes}
    (hmembers : o.members = before ++ m :: after) (hkey : textOf m.key = k)
    (hfound : find (quotedKey k) o.text 0 = some (o.upTo before m).length) :
    ∃ rest, memberText o.text k = some (m.value.text ++ rest) ∧
      (∀ b ∈ rest.head?, isDigit b = false) := by
  obtain ⟨rest, hbody, hrest⟩ := Object.text_split hmembers
  refine ⟨rest, ?_, hrest⟩
  have hneedle : quoted m.key = quotedKey k := by
    rw [← hkey]
    rfl
  have hcolon : ¬text ":" <:+: m.afterKey.bytes ++ (text ":").dropLast := by
    intro hcontained
    have hmem := hcontained.subset (show (58 : UInt8) ∈ text ":" by decide)
    rw [show (text ":").dropLast = [] from rfl, List.append_nil] at hmem
    rcases m.afterKey.blank 58 hmem with h | h | h | h <;> cases h
  have hfind := @find_append (text ":") (o.upTo before m ++ quotedKey k) m.afterKey.bytes
    (m.beforeValue.bytes ++ (m.value.text ++ rest)) hcolon (by decide)
  have hsplit : o.text = o.upTo before m ++ quotedKey k ++ (m.afterKey.bytes ++ text ":" ++
      (m.beforeValue.bytes ++ (m.value.text ++ rest))) := by
    rw [hbody, hneedle]
    simp only [List.append_assoc]
    rfl
  have hdrop : o.text.drop (m.afterKey.bytes.length + (o.upTo before m ++ quotedKey k).length + 1) =
      m.beforeValue.bytes ++ (m.value.text ++ rest) := by
    rw [hsplit, ← List.append_assoc]
    apply List.drop_left'
    simp only [List.length_append]
    change _ + (_ + 1) = _
    omega
  obtain ⟨c, bs, hvalue, hspace⟩ := Value.text_cons m.value
  have hfound' : find (text "\"" ++ k ++ text "\"") o.text 0 = some (o.upTo before m).length := hfound
  have hlength : (o.upTo before m).length + (text "\"" ++ k ++ text "\"").length =
      (o.upTo before m ++ quotedKey k).length := List.length_append.symm
  rw [memberText, hfound']
  simp only [Option.bind_eq_bind, Option.bind_some]
  rw [hlength, hsplit, hfind, Option.bind_some, ← hsplit, hdrop, hvalue, List.cons_append,
    Blank.dropWhile _ hspace]
  rfl

theorem memberText_length {body k t : Bytes} (h : memberText body k = some t) :
    t.length ≤ body.length := by
  unfold memberText at h
  obtain ⟨keyPos, -, h⟩ := Option.bind_eq_some_iff.mp h
  obtain ⟨p, -, h⟩ := Option.bind_eq_some_iff.mp h
  cases h
  exact (List.length_dropWhile_le _ _).trans (by rw [List.length_drop]; exact Nat.sub_le _ _)

theorem memberText_none {body k : Bytes} (h : find (quotedKey k) body 0 = none) :
    memberText body k = none := by
  have h' : find (text "\"" ++ k ++ text "\"") body 0 = none := h
  rw [memberText, h']
  rfl

theorem parseJsonString_string {body k rest : Bytes} {cs : List Character}
    (h : memberText body k = some ((Value.string cs).text ++ rest)) :
    parseJsonString body k = parseStringBody (textOf cs ++ 34 :: rest) [] := by
  rw [parseJsonString, h]
  change parseStringBody ((textOf cs ++ [34]) ++ rest) [] = _
  rw [List.append_assoc, List.singleton_append]

theorem parseJsonString_integer {body k rest : Bytes} {negative : Bool} {magnitude : Nat}
    (h : memberText body k = some ((Value.integer negative magnitude).text ++ rest)) :
    parseJsonString body k = none := by
  have hhead : ∃ c bs, (Value.integer negative magnitude).text = c :: bs ∧ c ≠ 34 := by
    cases negative with
    | true => exact ⟨45, _, rfl, by decide⟩
    | false =>
        obtain ⟨b, bs, hd⟩ := List.exists_cons_of_ne_nil (decimal_ne_nil magnitude)
        refine ⟨b, bs, hd, ?_⟩
        have hdigit := decimal_isDigit magnitude b (by simp [hd])
        rintro rfl
        cases hdigit
  obtain ⟨c, bs, htext, hc⟩ := hhead
  rw [parseJsonString, h, htext, List.cons_append]
  split
  · next heq =>
      cases heq
      exact absurd rfl hc
  · rfl

theorem parseJsonInt_iff {body k begin : Bytes} (h : memberText body k = some begin) (n : Int) :
    parseJsonInt body k = some n ↔ begin ≠ [] ∧
      ¬((strtoll begin).rest = begin ∨ (strtoll begin).erange = true) ∧
      ¬((strtoll begin).value < 0 ∨ (strtoll begin).value > 2 ^ 31 - 1) ∧
      (strtoll begin).value = n := by
  rw [parseJsonInt, h]
  simp only [Option.bind_eq_bind, Option.bind_some, Option.bind_eq_some_iff, Option.guard_eq_some',
    exists_const, Option.pure_def, Option.some_inj]

theorem parseJsonInt_string {body k rest : Bytes} {cs : List Character}
    (h : memberText body k = some ((Value.string cs).text ++ rest)) :
    parseJsonInt body k = none := by
  rw [Option.eq_none_iff_forall_ne_some]
  intro n hn
  exact ((parseJsonInt_iff h n).mp hn).2.1 (.inl rfl)

theorem parseJsonInt_integer {body k rest : Bytes} {negative : Bool} {magnitude : Nat}
    (h : memberText body k = some ((Value.integer negative magnitude).text ++ rest))
    (hrest : ∀ b ∈ rest.head?, isDigit b = false) (n : Int) :
    parseJsonInt body k = some n ↔
      (Value.integer negative magnitude).toInt? = some n ∧ 0 ≤ n ∧ n ≤ 2 ^ 31 - 1 := by
  have hstrtoll := strtoll_append negative magnitude hrest
  obtain ⟨c, bs, htext, -⟩ := Value.text_cons (.integer negative magnitude)
  have hne : (Value.integer negative magnitude).text ++ rest ≠ rest := by
    intro heq
    have hlength := congrArg List.length heq
    rw [htext, List.length_append, List.length_cons] at hlength
    omega
  have hempty : (Value.integer negative magnitude).text ++ rest ≠ [] := by
    rw [htext]
    exact List.cons_ne_nil c (bs ++ rest)
  change strtoll ((Value.integer negative magnitude).text ++ rest) = _ at hstrtoll
  rw [parseJsonInt_iff h, Value.toInt?, Option.some_inj, hstrtoll]
  generalize (if negative = true then -(magnitude : Int) else magnitude) = z
  by_cases hlow : z < -2 ^ 63
  · rw [if_pos hlow]
    exact iff_of_false (fun h => h.2.1 (.inr rfl)) (by omega)
  rw [if_neg hlow]
  by_cases hhigh : 2 ^ 63 ≤ z
  · rw [if_pos hhigh]
    exact iff_of_false (fun h => h.2.1 (.inr rfl)) (by omega)
  rw [if_neg hhigh]
  dsimp only
  constructor
  · rintro ⟨-, -, hrange, rfl⟩
    exact ⟨rfl, by omega⟩
  · rintro ⟨rfl, hrange⟩
    refine ⟨hempty, ?_, by omega, rfl⟩
    rintro (heq | herange)
    · exact hne heq.symm
    · cases herange

theorem parseJsonString_value {body k rest : Bytes} {v : Value}
    (h : memberText body k = some (v.text ++ rest)) (hlength : body.length ≤ kMaxRequestBody)
    (s : Bytes) :
    parseJsonString body k = some s ↔
      ∃ cs, v = .string cs ∧ (∀ c ∈ cs, c.isUnicode = false) ∧ decode cs = some s := by
  cases v with
  | string cs =>
      rw [parseJsonString_string h]
      by_cases hplain : ∀ c ∈ cs, c.isUnicode = false
      · have hsize : (textOf cs).length ≤ kMaxRequestBody := by
          refine le_trans ?_ ((memberText_length h).trans hlength)
          rw [Value.text, quoted, List.length_append, List.length_append, List.length_cons]
          omega
        obtain ⟨t, ht, hle⟩ := decode_length_le hplain
        rw [parseStringBody_decode hplain ht rest (by simpa using hle.trans hsize),
          List.nil_append, ← ht]
        constructor
        · intro hs
          exact ⟨cs, rfl, hplain, hs⟩
        · rintro ⟨cs', hstring, -, hs⟩
          cases hstring
          exact hs
      · rw [parseStringBody_refuse (by simpa using hplain)]
        refine iff_of_false (Option.some_ne_none _).symm ?_
        rintro ⟨cs', hstring, hplain', -⟩
        cases hstring
        exact hplain hplain'
  | integer negative magnitude =>
      rw [parseJsonString_integer h]
      refine iff_of_false (Option.some_ne_none _).symm ?_
      rintro ⟨cs, hstring, -⟩
      cases hstring

theorem parseJsonInt_value {body k rest : Bytes} {v : Value}
    (h : memberText body k = some (v.text ++ rest)) (hrest : ∀ b ∈ rest.head?, isDigit b = false)
    (n : Int) :
    parseJsonInt body k = some n ↔ v.toInt? = some n ∧ 0 ≤ n ∧ n ≤ 2 ^ 31 - 1 := by
  cases v with
  | string cs =>
      rw [parseJsonInt_string h]
      refine iff_of_false (Option.some_ne_none _).symm ?_
      rintro ⟨hint, -⟩
      cases hint
  | integer negative magnitude => exact parseJsonInt_integer h hrest n

def ReadsString (o : Object) (k : Bytes) : Prop :=
  ∀ s, parseJsonString o.text k = some s ↔
    ∃ m ∈ o.members, m.Named k ∧ ∃ cs, m.value = .string cs ∧ decode cs = some s

/-- The string of a field is that of the member, if it is written without numbered characters. -/
def ReadsUnnumbered (o : Object) (k : Bytes) : Prop :=
  ∀ s, parseJsonString o.text k = some s ↔
    ∃ m ∈ o.members, m.Named k ∧ ∃ cs, m.value = .string cs ∧ (∀ c ∈ cs, c.isUnicode = false) ∧
      decode cs = some s

/-- The integer of a field is that of the member, if it is one of 31 bits. -/
def ReadsInt (o : Object) (k : Bytes) : Prop :=
  ∀ n, parseJsonInt o.text k = some n ↔
    ∃ m ∈ o.members, m.Named k ∧ m.value.toInt? = some n ∧ 0 ≤ n ∧ n ≤ 2 ^ 31 - 1

/-- The quoted key first occurs as the key of the member of that name, and does not occur if there is
none. -/
def KeyFirst (o : Object) (k : Bytes) : Prop :=
  match find (quotedKey k) o.text 0 with
  | none => ∀ m ∈ o.members, ¬m.Named k
  | some pos => ∃ before m after, o.members = before ++ m :: after ∧ m.Named k ∧
      textOf m.key = k ∧ pos = (o.upTo before m).length

/-- The fields of a body that is not too large are those members whose keys are found first. -/
theorem request_fields {o : Object} {k : Bytes} (hdistinct : o.Distinct)
    (hlength : o.text.length ≤ kMaxRequestBody) (hkey : KeyFirst o k) :
    ReadsUnnumbered o k ∧ ReadsInt o k := by
  unfold KeyFirst at hkey
  split at hkey
  · next hnone =>
      have hmember := memberText_none hnone
      constructor
      · intro s
        rw [parseJsonString, hmember]
        refine iff_of_false (Option.some_ne_none _).symm ?_
        rintro ⟨m, hm, hnamed, -⟩
        exact hkey m hm hnamed
      · intro n
        rw [parseJsonInt, hmember]
        refine iff_of_false (Option.some_ne_none _).symm ?_
        rintro ⟨m, hm, hnamed, -⟩
        exact hkey m hm hnamed
  · next pos hfound =>
      obtain ⟨before, m, after, hmembers, hnamed, hwritten, rfl⟩ := hkey
      obtain ⟨rest, hmember, hrest⟩ := memberText_member hmembers hwritten hfound
      have hm : m ∈ o.members := by simp [hmembers]
      constructor
      · intro s
        rw [parseJsonString_value hmember hlength]
        exact (Object.exists_named_iff hdistinct hm hnamed fun m => ∃ cs, m.value = .string cs ∧
          (∀ c ∈ cs, c.isUnicode = false) ∧ decode cs = some s).symm
      · intro n
        rw [parseJsonInt_value hmember hrest]
        exact (Object.exists_named_iff hdistinct hm hnamed fun m =>
          m.value.toInt? = some n ∧ 0 ≤ n ∧ n ≤ 2 ^ 31 - 1).symm

/-- A prompt, and a context size behind some white space. -/
def promptObject : Object where
  leading := .empty
  members := [
    .compact (jsonCharacters (text "prompt")) (.string (jsonCharacters (text "context_size:\n"))),
    { beforeKey := ⟨text "\n  ", by decide +kernel⟩
      key := jsonCharacters (text "context_size")
      afterKey := .empty
      beforeValue := ⟨text " ", by decide +kernel⟩
      value := .integer false 2048
      afterValue := .empty }]
  inside := .empty
  trailing := .empty

theorem request_fields_prompt : ReadsUnnumbered promptObject (text "context_size") ∧
    ReadsInt promptObject (text "context_size") := by
  refine request_fields ?_ (by decide +kernel) ?_
  · refine List.pairwise_pair.mpr fun k hprompt hsize => ?_
    have hnames : decode (jsonCharacters (text "prompt")) =
        decode (jsonCharacters (text "context_size")) := hprompt.trans hsize.symm
    rw [decode_jsonCharacters, decode_jsonCharacters] at hnames
    exact absurd hnames (by decide)
  · have hfound : find (quotedKey (text "context_size")) promptObject.text 0 = some 31 := by
      decide +kernel
    unfold KeyFirst
    rw [hfound]
    exact ⟨[_], _, [], rfl, decode_jsonCharacters _, by decide, by decide +kernel⟩

/-- The body `{"prompt":"\u0041"}`. -/
def numberedObject : Object := .compact [.compact (jsonCharacters (text "prompt"))
  (.string [.unicode { value := ⟨0, by decide⟩ } { value := ⟨0, by decide⟩ }
    { value := ⟨4, by decide⟩ } { value := ⟨1, by decide⟩ }])]

/-- A prompt of one numbered character is not read. -/
theorem request_fields_numbered :
    ¬∀ (o : Object) (k : Bytes), o.Distinct → ReadsString o k ∧ ReadsInt o k := by
  intro h
  have hread := (h numberedObject (text "prompt") (List.pairwise_singleton _ _)).1 (text "A")
  have hrefused : parseJsonString numberedObject.text (text "prompt") ≠ some (text "A") := by
    decide +kernel
  exact hrefused (hread.mpr ⟨_, List.mem_singleton_self _, decode_jsonCharacters _, _, rfl, by decide⟩)

end Dashboard

end EdgeMind
