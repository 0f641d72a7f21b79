import BlockChart.Proofs.RoundTrip
import Mathlib.Data.List.Basic
import Mathlib.Tactic.Tauto

namespace BlockChart

/-!
# The grammar of serialized programs

`Program.ofJson` reads exactly the values of a grammar, which is stated here without the
reader: `Program.InGrammar` says what a node looks like, by the tables

* `Opcode.textKeys` — the keys that hold texts, some of them only certain words;
* `Opcode.linkKeys` — the keys that hold programs.

All other keys may hold anything.  `Program.PlacedIn` are the values that stand where a
program is expected.

* `Json.isName_compact` — the text of a number is none of those words;
* `Opcode.dispatch` — going by the name of an operation, with what comes of it;
* `Payload.exists_node_iff` and `Payload.node_eq_error` — when a payload reads, and what it
  complains of otherwise;
* `Program.ofJson_accepts` — acceptance, the operation of what was read, and the faults.
-/

/-! ### Texts of values are no names -/

namespace Json

/-- Whether a text is made of small letters and dashes, and is none of the words that JSON
    has values for. -/
def isName (s : String) : Bool :=
  s.toList.all (fun c => c.isLower || c == '-') && !(["null", "true", "false"].contains s)

/-- A text with another character in it is no name. -/
theorem isName_eq_false {s : String} {c : Char} (hc : c ∈ s.toList)
    (hother : (c.isLower || c == '-') = false) : isName s = false := by
  have hall : s.toList.all (fun c => c.isLower || c == '-') = false := by
    rw [List.all_eq_false]
    exact ⟨c, hc, by rw [hother]; decide⟩
  rw [isName, hall, Bool.false_and]

/-- A digit is neither a small letter nor a dash. -/
theorem not_isLower_of_isDigit {c : Char} (hc : c.isDigit = true) :
    (c.isLower || c == '-') = false := by
  have hval : 48 ≤ c.toNat ∧ c.toNat ≤ 57 := by
    simpa [Char.isDigit, UInt32.le_iff_toNat_le] using hc
  have hlower : c.isLower = false := by
    show (c.val ≥ 'a'.val && c.val ≤ 'z'.val) = false
    simp [UInt32.le_iff_toNat_le]
    omega
  have hdash : c ≠ '-' := by
    rintro rfl
    revert hval
    decide
  simp [hlower, hdash]

/-- The text has a digit. -/
def HasDigit (s : String) : Prop :=
  ∃ c ∈ s.toList, c.isDigit = true

/-- A text with a digit is no name. -/
theorem HasDigit.isName_eq_false {s : String} (h : HasDigit s) : isName s = false := by
  obtain ⟨c, hc, hdigit⟩ := h
  exact Json.isName_eq_false hc (not_isLower_of_isDigit hdigit)

theorem HasDigit.append_left {s : String} (h : HasDigit s) (t : String) : HasDigit (s ++ t) := by
  obtain ⟨c, hc, hdigit⟩ := h
  exact ⟨c, by rw [String.toList_append]; exact List.mem_append_left _ hc, hdigit⟩

theorem HasDigit.append_right {t : String} (h : HasDigit t) (s : String) : HasDigit (s ++ t) := by
  obtain ⟨c, hc, hdigit⟩ := h
  exact ⟨c, by rw [String.toList_append]; exact List.mem_append_right _ hc, hdigit⟩

/-- Every number has a digit in its decimal notation. -/
theorem exists_digit (n : Nat) : ∃ c ∈ Nat.toDigits 10 n, c.isDigit = true := by
  obtain ⟨c, hc⟩ := List.exists_mem_of_ne_nil _ (Nat.toDigits_ne_nil (b := 10) (n := n))
  exact ⟨c, hc, Nat.isDigit_of_mem_toDigits (by decide) (by decide) hc⟩

theorem hasDigit_nat (n : Nat) : HasDigit n.repr := by
  obtain ⟨c, hc, hdigit⟩ := exists_digit n
  exact ⟨c, by simpa [Nat.repr] using hc, hdigit⟩

theorem hasDigit_int (n : Int) : HasDigit (toString n) := by
  cases n with
  | ofNat n => exact hasDigit_nat n
  | negSucc n => exact (hasDigit_nat (n + 1)).append_right "-"

/-- Positional notation has a digit, the point aside. -/
theorem hasDigit_positional (d : Decimal) : HasDigit d.positional := by
  obtain ⟨c, hc, hdigit⟩ := exists_digit d.coefficient
  refine ⟨c, ?_, hdigit⟩
  unfold Decimal.positional Decimal.digits
  by_cases hexp : 0 ≤ d.exponent
  · simp only [if_pos hexp, String.toList_ofList]
    exact List.mem_append_left _ hc
  · -- the digits stand around the point
    simp only [if_neg hexp, String.toList_ofList]
    generalize hpad : List.replicate _ '0' ++ Nat.toDigits 10 d.coefficient = padded
    have hmem : c ∈ padded := hpad ▸ List.mem_append_right _ hc
    rw [← List.take_append_drop (padded.length - (-d.exponent).toNat) padded] at hmem
    rcases List.mem_append.mp hmem with hwhole | hplaces
    · exact List.mem_append_left _ hwhole
    · exact List.mem_append_right _ (List.mem_cons_of_mem _ hplaces)

/-- So has scientific notation. -/
theorem hasDigit_scientific (d : Decimal) : HasDigit d.scientific := by
  refine HasDigit.append_left ?_ _
  unfold Decimal.digits
  cases hdigits : Nat.toDigits 10 d.coefficient with
  | nil => exact absurd hdigits Nat.toDigits_ne_nil
  | cons c rest =>
    have hc : c ∈ Nat.toDigits 10 d.coefficient := hdigits ▸ List.mem_cons_self
    exact ⟨c, by simp, Nat.isDigit_of_mem_toDigits (by decide) (by decide) hc⟩

/-- And so has every number that can be written. -/
theorem hasDigit_jsonText {x : Float} {s : String} (h : jsonText? x = some s) : HasDigit s := by
  unfold jsonText? at h
  obtain ⟨⟨negative, d⟩, -, rfl⟩ := Option.map_eq_some_iff.mp h
  refine HasDigit.append_right ?_ _
  split
  · exact ⟨'0', by decide, rfl⟩
  · split
    · split
      · exact (hasDigit_positional d).append_left _
      · exact hasDigit_positional d
    · exact hasDigit_scientific d

/-- The text of a number is no name. -/
theorem isName_floatText (x : Float) : isName (floatText x) = false := by
  unfold floatText
  cases h : jsonText? x with
  | none => decide
  | some s => exact (hasDigit_jsonText h).isName_eq_false

/-- **The compact text of a value is no name.** -/
theorem isName_compact (v : Json) : isName v.compact = false := by
  cases v with
  | null => decide
  | bool b => cases b <;> decide
  | int n => exact (hasDigit_int n).isName_eq_false
  | float x => exact isName_floatText x
  | string s => exact isName_eq_false (c := '"') (by simp [compact, quoted]) rfl
  | array items => exact isName_eq_false (c := '[') (by simp [compact, bracketed]) rfl
  | object entries => exact isName_eq_false (c := '\x7b') (by simp [compact, bracketed]) rfl

end Json

/-- A value is found whose text is one of the words, if there are words, exactly if the value
    itself is such a word. -/
theorem Json.exists_word_iff {textOf : Json → Option String} {accepts : Json → Prop}
    (hsome : ∀ v, (∃ s, textOf v = some s) ↔ accepts v)
    (hname : ∀ v s, isName s = true → (textOf v = some s ↔ v = .string s))
    {found : Option Json} {choices : Option (List String)}
    (hnames : ∀ words ∈ choices, ∀ word ∈ words, isName word = true) :
    (∃ s, (∃ v, found = some v ∧ textOf v = some s) ∧ ∀ words ∈ choices, s ∈ words) ↔
      ∃ v, found = some v ∧ accepts v ∧
        ∀ words ∈ choices, ∃ word ∈ words, v = .string word := by
  constructor
  · rintro ⟨s, ⟨v, hv, hs⟩, hwords⟩
    refine ⟨v, hv, (hsome v).mp ⟨s, hs⟩, fun words hmem => ?_⟩
    have hword := hwords words hmem
    exact ⟨s, hword, (hname v s (hnames words hmem s hword)).mp hs⟩
  · rintro ⟨v, hv, haccepts, hwords⟩
    obtain ⟨s, hs⟩ := (hsome v).mpr haccepts
    refine ⟨s, ⟨v, hv, hs⟩, fun words hmem => ?_⟩
    -- the text of a word is the word, so the two agree
    obtain ⟨word, hword, rfl⟩ := hwords words hmem
    have hself := (hname _ word (hnames words hmem word hword)).mpr rfl
    rw [hs] at hself
    exact Option.some.inj hself ▸ hword

/-! ### Reading -/

/-- A sequence fails in its first part or in its second. -/
theorem bind_eq_error_iff {ε α β : Type} {x : Except ε α} {f : α → Except ε β} {e : ε} :
    (x >>= f) = .error e ↔ x = .error e ∨ ∃ a, x = .ok a ∧ f a = .error e := by
  cases x with
  | error e' => simp [bind, Except.bind]
  | ok a => simp

theorem pure_eq_error_iff {ε α : Type} {a : α} {e : ε} :
    (pure a : Except ε α) = .error e ↔ False :=
  ⟨fun h => (by cases h), False.elim⟩

/-- A computation succeeds if its first part does, and the rest after it. -/
theorem exists_bind_iff {ε α β : Type} {x : Except ε α} {f : α → Except ε β} :
    (∃ b, (x >>= f) = .ok b) ↔ ∃ a, x = .ok a ∧ ∃ b, f a = .ok b := by
  simp only [bind_eq_ok_iff]
  exact ⟨fun ⟨b, a, hx, hf⟩ => ⟨a, hx, b, hf⟩, fun ⟨a, hx, b, hf⟩ => ⟨b, a, hx, hf⟩⟩

theorem exists_pure {ε α : Type} (a : α) : (∃ b, (pure a : Except ε α) = .ok b) ↔ True :=
  iff_true_intro ⟨a, rfl⟩

/-- What may be missing is read if what is found is read. -/
theorem exists_getD_map_iff {ε α β : Type} {found : Option α} {f : α → Except ε β} {b : β} :
    (∃ r, (found.map f).getD (.ok b) = .ok r) ↔ ∀ a, found = some a → ∃ r, f a = .ok r := by
  cases found <;> simp

/-- What fails must have been there. -/
theorem getD_map_eq_error {ε α β : Type} {found : Option α} {f : α → Except ε β} {b : β} {e : ε}
    (h : (found.map f).getD (.ok b) = .error e) : ∃ a, found = some a ∧ f a = .error e := by
  cases found with
  | none => simp at h
  | some a => exact ⟨a, rfl, h⟩

/-! ### The tables -/

/-- Looking for a name in a list where each name leads back to what has it. -/
theorem find?_name_iff {α : Type} {name : α → String} {all : List α}
    (hself : ∀ a, all.find? (name · == name a) = some a) {s : String} {a : α} :
    all.find? (name · == s) = some a ↔ name a = s := by
  constructor
  · intro h
    have hname := List.find?_some h
    exact beq_iff_eq.mp hname
  · rintro rfl
    exact hself a

/-- A name that is not in the list is not found. -/
theorem find?_name_eq_none_iff {α : Type} {name : α → String} {all : List α} {s : String} :
    all.find? (name · == s) = none ↔ s ∉ all.map name := by
  simp only [List.find?_eq_none, beq_iff_eq, List.mem_map, not_exists, not_and]

namespace Opcode

/-- The operation of a name is the one that has it. -/
theorem ofName?_eq_some_iff {s : String} {op : Opcode} : ofName? s = some op ↔ op.name = s :=
  find?_name_iff ofName?_name

/-- There are no other operations. -/
theorem ofName?_eq_none_iff {s : String} : ofName? s = none ↔ s ∉ all.map name :=
  find?_name_eq_none_iff

/-- Different operations have different names. -/
theorem name_injective : Function.Injective name := by
  intro op op' h
  have hop : ofName? op'.name = some op := ofName?_eq_some_iff.mpr h
  rw [ofName?_name] at hop
  exact (Option.some.inj hop).symm

/-- Goes on with the operation of a name; a name that no operation has is a fault. -/
def dispatch {α : Type} (s : String) (f : Opcode → Except Fault α) : Except Fault α :=
  match ofName? s with
  | some op => f op
  | none => .error (.unknownOperation s)

/-- Dispatching succeeds under the name of an operation only. -/
theorem dispatch_eq_ok_iff {α : Type} {s : String} {f : Opcode → Except Fault α} {a : α} :
    dispatch s f = .ok a ↔ ∃ op, name op = s ∧ f op = .ok a := by
  unfold dispatch
  simp only [← ofName?_eq_some_iff]
  cases ofName? s <;> simp

/-- It fails because there is none of that name, or as the operation does. -/
theorem dispatch_eq_error {α : Type} {s : String} {f : Opcode → Except Fault α} {e : Fault}
    (h : dispatch s f = .error e) :
    (e = .unknownOperation s ∧ s ∉ all.map name) ∨ ∃ op, name op = s ∧ f op = .error e := by
  unfold dispatch at h
  cases hop : ofName? s with
  | none =>
    simp only [hop, Except.error.injEq] at h
    exact .inl ⟨h.symm, ofName?_eq_none_iff.mp hop⟩
  | some op =>
    simp only [hop] at h
    exact .inr ⟨op, ofName?_eq_some_iff.mp hop, h⟩

/-- Whether the payload of the operation is a text rather than an object. -/
def isBare : Opcode → Bool
  | string | load => true
  | _ => false

/-- The keys of the payload that hold texts, each with the words that it may hold if it may
    not hold any text. -/
def textKeys : Opcode → List (String × Option (List String))
  | binary | stat => [("operator", none)]
  | store | forEach => [("variable", none)]
  | color => [("attribute", some ["fill", "stroke"]), ("color", none)]
  | alpha => [("type", some ["opacity", "stroke-opacity", "fill-opacity"])]
  | align => [("horizontal", none), ("vertical", none)]
  | _ => []

/-- The keys of the payload that hold programs.  The body of `rotate` and of `scale` may
    stand under one of two keys. -/
def linkKeys (bodyKey : String) : Opcode → List String
  | string | load | width | height | rows | columns => []
  | count => ["value"]
  | cell => ["row", "column"]
  | columnName => ["index"]
  | binary => ["x", "y"]
  | stat => ["column"]
  | store => ["value", "next"]
  | color => ["next"]
  | alpha => ["alpha", "next"]
  | forEach => ["set", "child", "next"]
  | conditional => ["condition", "child", "next"]
  | translate => ["x", "y", "child", "next"]
  | rotate => ["degrees", bodyKey]
  | scale => ["factor", bodyKey]
  | align => ["child", "next"]
  | margin => ["size", "child", "next"]
  | circle => ["radius", "child", "next"]
  | rect => ["width", "height", "child", "next"]
  | text => ["text", "child", "next"]

/-- The words that are asked for are names, so they are what they are written as. -/
theorem isName_of_mem_textKeys (op : Opcode) :
    ∀ k ∈ op.textKeys, ∀ words ∈ k.2, ∀ word ∈ words, Json.isName word = true := by
  cases op <;> decide

end Opcode

theorem Paint.ofName?_eq_some_iff {s : String} {paint : Paint} :
    ofName? s = some paint ↔ paint.name = s :=
  find?_name_iff ofName?_name

theorem Opacity.ofName?_eq_some_iff {s : String} {opacity : Opacity} :
    ofName? s = some opacity ↔ opacity.name = s :=
  find?_name_iff ofName?_name

/-- Two words stand for the paint of an element. -/
theorem Paint.exists_name_iff {s : String} :
    (∃ paint : Paint, paint.name = s) ↔ s ∈ ["fill", "stroke"] := by
  constructor
  · rintro ⟨paint, rfl⟩
    cases paint <;> decide
  · intro h
    rcases List.mem_pair.mp h with rfl | rfl
    · exact ⟨.fill, rfl⟩
    · exact ⟨.stroke, rfl⟩

/-- Three words stand for an opacity. -/
theorem Opacity.exists_name_iff {s : String} :
    (∃ opacity : Opacity, opacity.name = s) ↔
      s ∈ ["opacity", "stroke-opacity", "fill-opacity"] := by
  constructor
  · rintro ⟨opacity, rfl⟩
    cases opacity <;> decide
  · intro h
    rcases List.mem_cons.mp h with rfl | h
    · exact ⟨.all, rfl⟩
    rcases List.mem_pair.mp h with rfl | rfl
    · exact ⟨.stroke, rfl⟩
    · exact ⟨.fill, rfl⟩

/-! ### The grammar -/

/-- Whether a value is a text or a number. -/
def Json.isText : Json → Bool
  | .string _ | .int _ | .float _ => true
  | _ => false

namespace Program

/-- The key under which the body of `rotate` and of `scale` stands: `child` if that key is
    there, else `next`. -/
def bodyKey {α : Type} (entries : List (String × α)) : String :=
  if (lookupEntry "child" entries).isSome then "child" else "next"

/-- **The grammar of serialized programs.** -/
inductive InGrammar : Json → Prop
  /-- Null is the absent program. -/
  | nothing : InGrammar .null
  /-- A `string` or `load` has a text or a number as payload. -/
  | bare {tag : String} {payload : Json} (op : Opcode) (name : op.name = tag)
      (isBare : op.isBare = true) (text : payload.isText = true) :
      InGrammar (.array [.string tag, payload])
  /-- Any other operation has an object as payload.  There, each of its text keys holds a
      text or a number, one of its words if it has any; and each of its link keys is missing
      or holds a program again. -/
  | node {tag : String} {entries : List (String × Json)} (op : Opcode) (name : op.name = tag)
      (notBare : op.isBare = false)
      (texts : ∀ k ∈ op.textKeys, ∃ v, lookupEntry k.1 entries = some v ∧ v.isText = true ∧
        ∀ words ∈ k.2, ∃ word ∈ words, v = .string word)
      (links : ∀ key ∈ op.linkKeys (bodyKey entries), ∀ v, lookupEntry key entries = some v →
        InGrammar v) :
      InGrammar (.array [.string tag, .object entries])

/-- The value `w` stands in `v` where a program is expected: it is `v`, or it is below a link
    key of a node. -/
inductive PlacedIn (w : Json) : Json → Prop
  | here : PlacedIn w w
  | link {tag key : String} {entries : List (String × Json)} {v : Json} (op : Opcode)
      (name : op.name = tag) (isKey : key ∈ op.linkKeys (bodyKey entries))
      (found : lookupEntry key entries = some v) (below : PlacedIn w v) :
      PlacedIn w (.array [.string tag, .object entries])

/-! ### Reading a payload -/

namespace Payload

variable {p : Payload} {key : String} {e : Fault}

/-- The body is the link under the name that is in use. -/
theorem body_eq (p : Payload) : p.body = p.link (bodyKey p.links) := by
  unfold body bodyKey
  cases hchild : lookupEntry "child" p.links with
  | none => rfl
  | some r => simp [link, hchild]

/-- A choice is made by a text that names one. -/
theorem exists_choice_iff {α : Type} {ofName? : String → Option α} :
    (∃ a, p.choice key ofName? = .ok a) ↔
      ∃ s, p.text key = .ok s ∧ ∃ a, ofName? s = some a := by
  unfold choice
  rw [exists_bind_iff]
  refine exists_congr fun s => and_congr_right fun _ => ?_
  cases ofName? s <;> simp

/-- **When a payload reads**: it belongs to an operation that takes objects, all texts are
    there, and all links read. -/
theorem exists_node_iff (p : Payload) :
    (∃ q, p.node = .ok q) ↔ p.op.isBare = false ∧
      (∀ k ∈ p.op.textKeys, ∃ s, p.text k.1 = .ok s ∧ ∀ words ∈ k.2, s ∈ words) ∧
      ∀ key ∈ p.op.linkKeys (bodyKey p.links), ∃ q, p.link key = .ok q := by
  cases hop : p.op <;>
    simp only [node, hop, Opcode.isBare, Opcode.textKeys, Opcode.linkKeys, body_eq,
      exists_bind_iff, exists_pure]
  all_goals simp [exists_choice_iff, Paint.ofName?_eq_some_iff, Paint.exists_name_iff,
    Opacity.ofName?_eq_some_iff, Opacity.exists_name_iff, and_assoc]
  -- what is left differs in the order of texts and links
  all_goals tauto

/-- A text that cannot be read is malformed. -/
theorem text_eq_error (h : p.text key = .error e) : ∃ cause, e = .malformed cause := by
  unfold text at h
  split at h
  · cases h
  · exact ⟨_, (Except.error.inj h).symm⟩

/-- So is a choice that cannot be made. -/
theorem choice_eq_error {α : Type} {ofName? : String → Option α}
    (h : p.choice key ofName? = .error e) : ∃ cause, e = .malformed cause := by
  rcases bind_eq_error_iff.mp h with htext | ⟨s, -, hs⟩
  · exact text_eq_error htext
  · split at hs
    · cases hs
    · exact ⟨_, (Except.error.inj hs).symm⟩

/-- **What a payload complains of**: its own shape, or what a link complains of. -/
theorem node_eq_error (h : p.node = .error e) :
    (∃ cause, e = .malformed cause) ∨
      ∃ key ∈ p.op.linkKeys (bodyKey p.links), p.link key = .error e := by
  cases hop : p.op <;> simp only [node, hop, body_eq, bind_eq_error_iff,
    pure_eq_error_iff, and_false, exists_false, or_false] at h
  all_goals grind [Opcode.linkKeys, text_eq_error, choice_eq_error]

/-- The text under a key is that of a text or a number. -/
theorem text_eq_ok_iff {s : String} :
    p.text key = .ok s ↔ ∃ v, lookupEntry key p.entries = some v ∧ textOf? v = some s := by
  unfold text
  cases lookupEntry key p.entries with
  | none => simp
  | some v => cases hv : textOf? v <;> simp [hv]

end Payload

/-- Texts and numbers have a text, and nothing else has. -/
theorem exists_textOf?_iff (v : Json) : (∃ s, textOf? v = some s) ↔ v.isText = true := by
  cases v <;> simp [textOf?, Json.isText]

/-- Only a text has a name as its text: numbers have digits. -/
theorem textOf?_eq_some_of_isName {v : Json} {s : String} (hs : Json.isName s = true) :
    textOf? v = some s ↔ v = .string s := by
  constructor
  · intro h
    cases v with
    | string t => exact congrArg Json.string (Option.some.inj h)
    | int n | float x =>
      have hcompact := Option.some.inj h
      rw [← hcompact, Json.isName_compact] at hs
      cases hs
    | null | bool | array | object => cases h
  · rintro rfl
    rfl

namespace Payload

variable {op : Opcode} {entries : List (String × Json)} {key : String} {e : Fault}

/-- The payload that reading prepares from an object. -/
def read (op : Opcode) (entries : List (String × Json)) : Payload :=
  ⟨op, entries, ofJsonEntries entries⟩

/-- The body has the same name among the links as among the entries. -/
theorem bodyKey_links_read : bodyKey (read op entries).links = bodyKey entries := by
  simp [read, bodyKey, lookupEntry_ofJsonEntries]

/-- A link is read from the entry of its name, and is nothing where there is none. -/
theorem link_read :
    (read op entries).link key = ((lookupEntry key entries).map ofJson).getD (.ok nothing) := by
  rw [link, read, lookupEntry_ofJsonEntries]

/-- A text reads if it is a text or a number, and the word itself if only words may stand
    there. -/
theorem exists_text_read_iff {choices : Option (List String)}
    (hnames : ∀ words ∈ choices, ∀ word ∈ words, Json.isName word = true) :
    (∃ s, (read op entries).text key = .ok s ∧ ∀ words ∈ choices, s ∈ words) ↔
      ∃ v, lookupEntry key entries = some v ∧ v.isText = true ∧
        ∀ words ∈ choices, ∃ word ∈ words, v = .string word := by
  simp only [text_eq_ok_iff]
  exact Json.exists_word_iff exists_textOf?_iff (fun _ _ => textOf?_eq_some_of_isName) hnames

end Payload

/-! ### Acceptance -/

/-- Reads the payload of an operation. -/
def readPayload (op : Opcode) : Json → Except Fault Program
  | .object entries => (Payload.read op entries).node
  | payload => bareNode op payload

section Acceptance

variable {op : Opcode} {tag : String} {entries : List (String × Json)} {payload v : Json}
  {p : Program} {e : Fault}

/-- A pair is read by the operation that its tag names. -/
theorem ofJson_pair (tag : String) (payload : Json) :
    ofJson (.array [.string tag, payload]) = Opcode.dispatch tag (readPayload · payload) := by
  cases payload <;> (unfold ofJson; rfl)

/-- **The shapes of values**: null, a tag with a payload, and what is refused at once. -/
theorem ofJson_shape (v : Json) :
    v = .null ∨ (∃ tag payload, v = .array [.string tag, payload]) ∨
      ofJson v = .error (.malformed (.notPair v)) := by
  unfold ofJson
  split
  · exact .inl rfl
  · exact .inr (.inl ⟨_, _, rfl⟩)
  · exact .inr (.inl ⟨_, _, rfl⟩)
  · exact .inr (.inr rfl)

/-- A bare node is of the operation that was asked for. -/
theorem bareNode_eq_ok (h : bareNode op payload = .ok p) : p.opcode? = some op := by
  unfold bareNode at h
  grind [opcode?]

/-- A bare node that cannot be read is malformed. -/
theorem bareNode_eq_error (h : bareNode op payload = .error e) : ∃ cause, e = .malformed cause := by
  unfold bareNode at h
  grind

/-- Only bare operations have a bare node, and they take a text or a number. -/
theorem exists_bareNode_iff :
    (∃ p, bareNode op payload = .ok p) ↔ op.isBare = true ∧ payload.isText = true := by
  rw [← exists_textOf?_iff]
  cases op <;> cases hs : textOf? payload <;> simp [bareNode, Opcode.isBare, hs]

/-- An object reads if the operation takes objects, its texts are there, and everything linked
    reads. -/
theorem exists_node_read_iff :
    (∃ p, (Payload.read op entries).node = .ok p) ↔ op.isBare = false ∧
      (∀ k ∈ op.textKeys, ∃ v, lookupEntry k.1 entries = some v ∧ v.isText = true ∧
        ∀ words ∈ k.2, ∃ word ∈ words, v = .string word) ∧
      ∀ key ∈ op.linkKeys (bodyKey entries), ∀ v, lookupEntry key entries = some v →
        ∃ p, ofJson v = .ok p := by
  rw [Payload.exists_node_iff, Payload.bodyKey_links_read]
  simp only [Payload.link_read, exists_getD_map_iff]
  refine and_congr_right' (and_congr_left' (forall₂_congr fun k hk => ?_))
  exact Payload.exists_text_read_iff (op.isName_of_mem_textKeys k hk)

/-- Bare or not, the node is of the operation that was asked for. -/
theorem readPayload_eq_ok (h : readPayload op payload = .ok p) : p.opcode? = some op := by
  unfold readPayload at h
  split at h
  · exact (Payload.node_eq_ok h).1
  · exact bareNode_eq_ok h

/-- A payload is malformed, or the fault is that of what stands under one of its links. -/
theorem readPayload_eq_error (h : readPayload op payload = .error e) :
    (∃ cause, e = .malformed cause) ∨
      ∃ entries key w, payload = .object entries ∧ key ∈ op.linkKeys (bodyKey entries) ∧
        lookupEntry key entries = some w ∧ ofJson w = .error e := by
  unfold readPayload at h
  split at h
  · rcases Payload.node_eq_error h with hcause | ⟨key, hkey, hlink⟩
    · exact .inl hcause
    · rw [Payload.bodyKey_links_read] at hkey
      rw [Payload.link_read] at hlink
      obtain ⟨w, hw, hfault⟩ := getD_map_eq_error hlink
      exact .inr ⟨_, key, w, rfl, hkey, hw, hfault⟩
  · exact .inl (bareNode_eq_error h)

/-- What stands under a key is smaller than the node. -/
theorem sizeOf_lt_of_lookupEntry {key : String} (h : lookupEntry key entries = some v) :
    sizeOf v < sizeOf (Json.array [.string tag, .object entries]) := by
  have hlt := List.sizeOf_lt_of_mem (mem_of_lookupEntry h)
  simp only [Prod.mk.sizeOf_spec] at hlt
  simp
  omega

/-- Induction along the keys of nodes. -/
theorem link_induction {P : Json → Prop}
    (step : ∀ v, (∀ tag entries key w, v = .array [.string tag, .object entries] →
      lookupEntry key entries = some w → P w) → P v) (v : Json) : P v :=
  step v fun tag entries key w hv hw =>
    have : sizeOf w < sizeOf v := hv ▸ sizeOf_lt_of_lookupEntry hw
    link_induction step w
termination_by sizeOf v

/-- What is read is in the grammar: each link is followed to what stands there. -/
theorem inGrammar_of_ofJson (v : Json) (h : ∃ p, ofJson v = .ok p) : InGrammar v := by
  induction v using link_induction with
  | step v ih =>
    obtain ⟨p, hp⟩ := h
    rcases ofJson_shape v with rfl | ⟨tag, payload, rfl⟩ | hrefused
    · exact .nothing
    · rw [ofJson_pair] at hp
      obtain ⟨op, hname, hread⟩ := Opcode.dispatch_eq_ok_iff.mp hp
      unfold readPayload at hread
      split at hread
      · obtain ⟨hbare, htexts, hlinks⟩ := exists_node_read_iff.mp ⟨p, hread⟩
        exact .node op hname hbare htexts fun key hkey w hw =>
          ih tag _ key w rfl hw (hlinks key hkey w hw)
      · obtain ⟨hbare, htext⟩ := exists_bareNode_iff.mp ⟨p, hread⟩
        exact .bare op hname hbare htext
    · rw [hrefused] at hp
      cases hp

/-- What is in the grammar is read. -/
theorem InGrammar.exists_ofJson (h : InGrammar v) : ∃ p, ofJson v = .ok p := by
  induction h with
  | nothing => exact ⟨_, ofJson_null⟩
  | @bare tag payload op hname hbare htext =>
    obtain ⟨p, hp⟩ := exists_bareNode_iff.mpr ⟨hbare, htext⟩
    refine ⟨p, ?_⟩
    rw [ofJson_pair]
    refine Opcode.dispatch_eq_ok_iff.mpr ⟨op, hname, ?_⟩
    -- a text is no object, so it is read as it stands
    cases payload with
    | object => cases htext
    | null | bool | int | float | string | array => exact hp
  | node op hname hbare htexts _ ih =>
    obtain ⟨p, hp⟩ := exists_node_read_iff.mpr ⟨hbare, htexts, ih⟩
    refine ⟨p, ?_⟩
    rw [ofJson_pair]
    exact Opcode.dispatch_eq_ok_iff.mpr ⟨op, hname, hp⟩

/-- What was read has the operation of its tag. -/
theorem ofJson_tag (h : ofJson v = .ok p) :
    (v = .null ∧ p = nothing) ∨
      ∃ (op : Opcode) (payload : Json),
        v = .array [.string op.name, payload] ∧ p.opcode? = some op := by
  rcases ofJson_shape v with rfl | ⟨tag, payload, rfl⟩ | hrefused
  · rw [ofJson_null] at h
    exact .inl ⟨rfl, (Except.ok.inj h).symm⟩
  · rw [ofJson_pair] at h
    obtain ⟨op, rfl, hread⟩ := Opcode.dispatch_eq_ok_iff.mp h
    exact .inr ⟨op, payload, rfl, readPayload_eq_ok hread⟩
  · rw [hrefused] at h
    cases h

/-- A fault of the reader: an unknown tag that stands where a program is expected, or a
    malformed value. -/
theorem ofJson_fault (v : Json) (h : ofJson v = .error e) :
    (∃ x payload, e = .unknownOperation x ∧ PlacedIn (.array [.string x, payload]) v ∧
      x ∉ Opcode.all.map Opcode.name) ∨ ∃ cause, e = .malformed cause := by
  induction v using link_induction with
  | step v ih =>
    rcases ofJson_shape v with rfl | ⟨tag, payload, rfl⟩ | hrefused
    · simp at h
    · rw [ofJson_pair] at h
      rcases Opcode.dispatch_eq_error h with ⟨he, htag⟩ | ⟨op, hname, hread⟩
      · exact .inl ⟨tag, payload, he, .here, htag⟩
      · rcases readPayload_eq_error hread with hcause | ⟨entries, key, w, rfl, hkey, hw, hfault⟩
        · exact .inr hcause
        · -- the fault was raised somewhere in what the link holds
          refine (ih tag entries key w rfl hw hfault).imp_left ?_
          rintro ⟨x, payload, he, hplaced, hx⟩
          exact ⟨x, payload, he, .link op hname hkey hw hplaced, hx⟩
    · rw [hrefused] at h
      exact .inr ⟨_, (Except.error.inj h).symm⟩

end Acceptance

/-- **Reading accepts exactly the grammar.**  What was read from a node has the operation that
    the tag of the node names; whatever is refused has a tag outside the catalog where a program
    is expected, or is malformed. -/
theorem ofJson_accepts (v : Json) :
    ((∃ p, ofJson v = .ok p) ↔ InGrammar v) ∧
      (∀ p, ofJson v = .ok p →
        (v = .null ∧ p = nothing) ∨
          ∃ (op : Opcode) (payload : Json),
            v = .array [.string op.name, payload] ∧ p.opcode? = some op) ∧
      ∀ e, ofJson v = .error e →
        (∃ x payload, e = .unknownOperation x ∧ PlacedIn (.array [.string x, payload]) v ∧
          x ∉ Opcode.all.map Opcode.name) ∨ ∃ cause, e = .malformed cause :=
  ⟨⟨inGrammar_of_ofJson v, InGrammar.exists_ofJson⟩, fun _ => ofJson_tag, fun _ => ofJson_fault v⟩

/-- A key that the operation does not know may hold anything, and so may `next` where the body
    stands under `child`. -/
example :
    ofJson (.array [.string "scale", .object [("radius", .int 1), ("next", .bool true),
      ("child", .array [.string "rows", .object []])]])
      = .ok (.scale false .nothing (.rows false)) :=
  rfl

end Program

end BlockChart
