import BlockChart.Proofs.ProgramGrammar
import Mathlib.Data.List.Forall2

namespace BlockChart

/-!
# Entries that hold null

A link that holds null is an empty slot, and so is a link that is missing.  One would expect
that a payload may leave out its nulls, `Json.withoutNulls`, and mean the same.  That is so
unless a `rotate` or a `scale` has null under `child` and its body under `next`: the key
`child` is there, so `next` is not looked at (`Program.LosesBody`).

* `Agree` — the same result, or faults of the same kind;
* `Payload.linked` — what the links of a payload read as.  These are the slots of its node
  (`Payload.linked_of_node`), and agreement of the links carries over to the nodes
  (`Payload.node_agree`);
* `Payload.linked_withoutNulls` — what happens to the links when the nulls go;
* `Program.ofJson_withoutNulls` — nulls may be left out exactly if no body is lost.
-/

/-! ### Agreement of results -/

/-- Two results agree: they are the same value, or faults of the same kind. -/
def Agree {α : Type} (r r' : Except Fault α) : Prop :=
  r.mapError Fault.kind = r'.mapError Fault.kind

namespace Agree

variable {α β : Type} {r r' : Except Fault α}

theorem refl (r : Except Fault α) : Agree r r := rfl

theorem trans {r'' : Except Fault α} (h : Agree r r') (h' : Agree r' r'') : Agree r r'' :=
  Eq.trans h h'

/-- Two errors agree if they are of one kind. -/
theorem of_kind {e e' : Fault} (h : e.kind = e'.kind) :
    Agree (.error e : Except Fault α) (.error e') :=
  congrArg Except.error h

/-- What agrees goes on in the same way. -/
theorem bind {f f' : α → Except Fault β} (h : Agree r r') (hf : ∀ a, Agree (f a) (f' a)) :
    Agree (r >>= f) (r' >>= f') := by
  cases r with
  | error e =>
    cases r' with
    | error e' => exact congrArg Except.error (Except.error.inj h)
    | ok b => cases h
  | ok a =>
    cases r' with
    | error e' => cases h
    | ok b =>
      obtain rfl : a = b := Except.ok.inj h
      exact hf a

/-- A value agrees with itself only. -/
theorem eq_ok {a : α} (h : Agree (.ok a) r) : r = .ok a := by
  cases r with
  | error e => cases h
  | ok b => exact congrArg Except.ok (Except.ok.inj h).symm

end Agree

/-! ### Leaving out nulls -/

namespace Json

mutual

/-- The value without the entries that hold null, in the payload of every node at any
    depth. -/
def withoutNulls : Json → Json
  | .array [.string tag, .object entries] =>
    .array [.string tag, .object (entriesWithoutNulls entries)]
  | v => v

/-- The entries that do not hold null, themselves without nulls. -/
def entriesWithoutNulls : List (String × Json) → List (String × Json)
  | [] => []
  | (_, .null) :: rest => entriesWithoutNulls rest
  | (key, v) :: rest => (key, v.withoutNulls) :: entriesWithoutNulls rest

end

@[simp] theorem withoutNulls_null : withoutNulls .null = .null := by
  simp [withoutNulls]

/-- A node keeps its name and loses the entries that are null. -/
@[simp] theorem withoutNulls_node (tag : String) (entries : List (String × Json)) :
    withoutNulls (.array [.string tag, .object entries])
      = .array [.string tag, .object (entriesWithoutNulls entries)] := by
  rw [withoutNulls]

/-- Only payloads that are objects lose entries. -/
theorem withoutNulls_eq_self {v : Json}
    (h : ∀ tag entries, v ≠ .array [.string tag, .object entries]) : v.withoutNulls = v := by
  unfold withoutNulls
  split
  case h_1 tag entries => exact absurd rfl (h tag entries)
  case h_2 => rfl

/-- What is no node comes from itself only. -/
theorem withoutNulls_eq_iff {v w : Json}
    (hw : ∀ tag entries, w ≠ .array [.string tag, .object entries]) :
    v.withoutNulls = w ↔ v = w := by
  constructor
  · intro h
    unfold withoutNulls at h
    split at h
    · exact absurd h.symm (hw _ _)
    · exact h
  · rintro rfl
    exact withoutNulls_eq_self hw

/-- The keys of a node are its own and those of what it holds. -/
theorem distinctKeys_node {tag : String} {entries : List (String × Json)} :
    DistinctKeys (.array [.string tag, .object entries]) ↔
      (entries.map Prod.fst).Nodup ∧ DistinctMembers entries := by
  simp [DistinctKeys, DistinctItems]

/-- What is under a key has distinct keys too. -/
theorem DistinctMembers.of_lookupEntry {key : String} {v : Json} {entries : List (String × Json)}
    (h : DistinctMembers entries) (hv : lookupEntry key entries = some v) : v.DistinctKeys := by
  induction entries with
  | nil => cases hv
  | cons entry rest ih =>
    obtain ⟨k, w⟩ := entry
    obtain ⟨hw, hrest⟩ := h
    unfold lookupEntry at hv
    split at hv
    · exact Option.some.inj hv ▸ hw
    · exact ih hrest hv

end Json

namespace Opcode

/-- Whether the body of the operation may stand under either of two keys. -/
def takesBody : Opcode → Bool
  | rotate | scale => true
  | _ => false

variable {op : Opcode}

/-- An operation with a body has one input before it. -/
theorem linkKeys_of_takesBody (h : op.takesBody = true) :
    ∃ first, ∀ bodyKey, op.linkKeys bodyKey = [first, bodyKey] := by
  cases op
  case rotate => exact ⟨"degrees", fun _ => rfl⟩
  case scale => exact ⟨"factor", fun _ => rfl⟩
  all_goals cases h

/-- Without a body the name of the body does not matter. -/
theorem linkKeys_of_not_takesBody (h : op.takesBody = false) (bodyKey bodyKey' : String) :
    op.linkKeys bodyKey = op.linkKeys bodyKey' := by
  cases op
  case rotate | scale => cases h
  all_goals rfl

/-- The name of an operation leads to that operation. -/
theorem dispatch_name {α : Type} (op : Opcode) (f : Opcode → Except Fault α) :
    dispatch op.name f = f op := by
  rw [dispatch, ofName?_name]

/-- Going on in ways that agree gives results that agree. -/
theorem dispatch_agree {α : Type} {s : String} {f f' : Opcode → Except Fault α}
    (h : ∀ op, name op = s → Agree (f op) (f' op)) : Agree (dispatch s f) (dispatch s f') := by
  unfold dispatch
  cases hop : ofName? s with
  | none => exact .refl _
  | some op => exact h op (ofName?_eq_some_iff.mp hop)

end Opcode

namespace Program

open Json (entriesWithoutNulls)

/-- Whatever is not null is plugged. -/
theorem plugged?_of_ne_null {v : Json} (h : v ≠ .null) : plugged? v = some v := by
  cases v with
  | null => exact absurd rfl h
  | bool | int | float | string | array | object => rfl

/-- What stands under a key when the nulls are left out. -/
theorem lookupEntry_entriesWithoutNulls {entries : List (String × Json)}
    (hkeys : (entries.map Prod.fst).Nodup) (key : String) :
    lookupEntry key (entriesWithoutNulls entries)
      = ((lookupEntry key entries).bind plugged?).map Json.withoutNulls := by
  induction entries with
  | nil => rfl
  | cons entry rest ih =>
    obtain ⟨k, v⟩ := entry
    obtain ⟨hfresh, hrest⟩ := List.nodup_cons.mp hkeys
    by_cases hk : k = key
    · subst hk
      -- the keys are distinct, so a `null` that is dropped hides no later entry
      have hnone : lookupEntry k rest = none := lookupEntry_eq_none_of_notMem hfresh
      cases v <;> simp [entriesWithoutNulls, lookupEntry, plugged?, ih hrest, hnone]
    · cases v <;> simp [entriesWithoutNulls, lookupEntry, hk, ih hrest]

/-- A text is no node, so nothing is taken from it. -/
theorem textOf?_withoutNulls (v : Json) : textOf? v.withoutNulls = textOf? v := by
  unfold Json.withoutNulls
  split <;> rfl

/-- Only null reads as nothing. -/
theorem ofJson_eq_nothing_iff {v : Json} : ofJson v = .ok nothing ↔ v = .null := by
  constructor
  · intro h
    rcases ofJson_tag h with ⟨hnull, -⟩ | ⟨op, payload, -, hop⟩
    · exact hnull
    · cases hop
  · rintro rfl
    exact ofJson_null

/-! ### The links of a payload -/

namespace Payload

variable {p p' : Payload}

/-- What the links of a payload read as, in the order of the slots. -/
def linked (p : Payload) : List (Except Fault Program) :=
  (p.op.linkKeys (bodyKey p.links)).map p.link

/-- **The links are the slots** of the node that is read. -/
theorem linked_of_node {q : Program} (h : p.node = .ok q) : p.linked = q.slots.map .ok := by
  unfold linked
  cases hop : p.op <;> simp only [node, hop, body_eq, bind_eq_ok_iff, pure_eq_ok_iff] at h
  case string | load => cases h
  case width | height | rows | columns =>
    obtain rfl := Except.ok.inj h
    rfl
  -- each part that was read is peeled off, until the node itself is left
  all_goals
    repeat obtain ⟨_, _, h⟩ := h
    simp [slots, Opcode.linkKeys, *]

/-- A choice depends on the text of its key only. -/
theorem choice_congr {α : Type} {key : String} {ofName? : String → Option α}
    (hop : p'.op = p.op) (htext : p'.text key = p.text key) :
    p'.choice key ofName? = p.choice key ofName? := by
  rw [choice, choice, hop, htext]

/-- **Agreement carries over to nodes**: what else a node reads is the same in both. -/
theorem node_agree (hop : p'.op = p.op) (hflag : p'.flag "disabled" = p.flag "disabled")
    (htext : ∀ key, p'.text key = p.text key)
    (hlinked : List.Forall₂ Agree p.linked p'.linked) : Agree p.node p'.node := by
  unfold linked at hlinked
  rw [hop] at hlinked
  have hchoice {α : Type} (key : String) (ofName? : String → Option α) :
      p'.choice key ofName? = p.choice key ofName? := choice_congr hop (htext key)
  unfold node
  rw [hop, hflag]
  -- each operation reads its links in the order of `linkKeys`
  cases hp : p.op <;> simp only [hp, Opcode.linkKeys, List.map_cons, List.map_nil,
    List.forall₂_cons, List.forall₂_nil_left_iff, and_true] at hlinked
  case string | load => exact .of_kind rfl
  all_goals
    simp only [htext, hchoice, body_eq]
    repeat' refine Agree.bind ?_ fun _ => ?_
    all_goals first | exact .refl _ | simp only [hlinked]

end Payload

/-! ### The links without nulls -/

/-- `child` holds null while something stands under `next`. -/
def ChildHidesNext (entries : List (String × Json)) : Prop :=
  lookupEntry "child" entries = some .null ∧
    ∃ w, lookupEntry "next" entries = some w ∧ w ≠ .null

/-- Somewhere in the value a `rotate` or `scale` has its body under `next`, hidden by a
    `child` that holds null. -/
def LosesBody (v : Json) : Prop :=
  ∃ (op : Opcode) (entries : List (String × Json)),
    PlacedIn (.array [.string op.name, .object entries]) v ∧
      op.takesBody = true ∧ ChildHidesNext entries

namespace Payload

variable {op : Opcode} {entries : List (String × Json)}

/-- A flag is set by the value `true`, and by no other. -/
theorem flag_eq_true_iff {p : Payload} {key : String} :
    p.flag key = true ↔ lookupEntry key p.entries = some (.bool true) := by
  unfold flag
  split <;> simp_all

/-- So a flag is read as before. -/
theorem flag_withoutNulls (hkeys : (entries.map Prod.fst).Nodup) (key : String) :
    (read op (entriesWithoutNulls entries)).flag key = (read op entries).flag key := by
  rw [Bool.eq_iff_iff, flag_eq_true_iff, flag_eq_true_iff]
  show lookupEntry key (entriesWithoutNulls entries) = _ ↔ lookupEntry key entries = _
  rw [lookupEntry_entriesWithoutNulls hkeys]
  cases lookupEntry key entries with
  | none => rfl
  | some v =>
    have hbool : v.withoutNulls = .bool true ↔ v = .bool true :=
      Json.withoutNulls_eq_iff (by simp)
    -- a `null` is no flag, whether it is there or not
    rcases eq_or_ne v .null with rfl | hv
    · simp [plugged?]
    · simp [plugged?_of_ne_null hv, hbool]

/-- A text is read as before: null has no text. -/
theorem text_withoutNulls (hkeys : (entries.map Prod.fst).Nodup) (key : String) :
    (read op (entriesWithoutNulls entries)).text key = (read op entries).text key := by
  have hfound : (lookupEntry key (entriesWithoutNulls entries)).bind textOf?
      = (lookupEntry key entries).bind textOf? := by
    rw [lookupEntry_entriesWithoutNulls hkeys]
    cases lookupEntry key entries with
    | none => rfl
    | some v =>
      rcases eq_or_ne v .null with rfl | hv
      · rfl
      · simp [plugged?_of_ne_null hv, textOf?_withoutNulls]
  unfold text read
  rw [hfound]

/-- A link is read from the value without its nulls. -/
theorem link_withoutNulls (hkeys : (entries.map Prod.fst).Nodup) (key : String) :
    (read op (entriesWithoutNulls entries)).link key
      = ((lookupEntry key entries).map fun v => ofJson v.withoutNulls).getD (.ok nothing) := by
  rw [link_read, lookupEntry_entriesWithoutNulls hkeys]
  cases lookupEntry key entries with
  | none => rfl
  | some v =>
    rcases eq_or_ne v .null with rfl | hv
    · simp [plugged?]
    · simp [plugged?_of_ne_null hv]

/-- The links of a node are those under its keys, in order. -/
theorem linked_read :
    (read op entries).linked = (op.linkKeys (bodyKey entries)).map (read op entries).link := by
  rw [linked, bodyKey_links_read]
  rfl

/-- Leaving out the nulls changes the key of the body only if `child` holds null. -/
theorem link_bodyKey_withoutNulls (hkeys : (entries.map Prod.fst).Nodup)
    (hhides : ¬ChildHidesNext entries) :
    (read op (entriesWithoutNulls entries)).link (bodyKey (entriesWithoutNulls entries))
      = (read op (entriesWithoutNulls entries)).link (bodyKey entries) := by
  unfold bodyKey
  rw [lookupEntry_entriesWithoutNulls hkeys]
  cases hchild : lookupEntry "child" entries with
  | none => rfl
  | some v =>
    rcases eq_or_ne v .null with rfl | hv
    · -- `child` is empty, and nothing stands under `next` either
      have hnext : ∀ w, lookupEntry "next" entries = some w → w = .null :=
        fun w hw => not_not.mp fun hne => hhides ⟨hchild, w, hw, hne⟩
      rw [link_withoutNulls hkeys, link_withoutNulls hkeys]
      cases hw : lookupEntry "next" entries with
      | none => simp [plugged?, hw, hchild]
      | some w => simp [plugged?, hw, hchild, hnext w hw]
    · simp [plugged?_of_ne_null hv]

/-- **The links without nulls**: the same keys are looked up, unless a body comes to light. -/
theorem linked_withoutNulls (hkeys : (entries.map Prod.fst).Nodup)
    (hhides : op.takesBody = true → ¬ChildHidesNext entries) :
    (read op (entriesWithoutNulls entries)).linked
      = (op.linkKeys (bodyKey entries)).map (read op (entriesWithoutNulls entries)).link := by
  rw [linked_read]
  cases hbody : op.takesBody with
  | false => rw [op.linkKeys_of_not_takesBody hbody]
  | true =>
    obtain ⟨first, hkeysOf⟩ := op.linkKeys_of_takesBody hbody
    rw [hkeysOf, hkeysOf]
    simp only [List.map_cons, List.map_nil, link_bodyKey_withoutNulls hkeys (hhides hbody)]

/-- A body that comes to light is another one than before. -/
theorem linked_withoutNulls_ne (hkeys : (entries.map Prod.fst).Nodup)
    (hbody : op.takesBody = true) (hhides : ChildHidesNext entries) :
    (read op (entriesWithoutNulls entries)).linked ≠ (read op entries).linked := by
  obtain ⟨hchild, w, hnext, hw⟩ := hhides
  obtain ⟨first, hkeysOf⟩ := op.linkKeys_of_takesBody hbody
  have hbefore : bodyKey entries = "child" := by simp [bodyKey, hchild]
  have hafter : bodyKey (entriesWithoutNulls entries) = "next" := by
    simp [bodyKey, lookupEntry_entriesWithoutNulls hkeys, hchild, plugged?]
  rw [linked_read, linked_read, hbefore, hafter, hkeysOf, hkeysOf]
  intro hsame
  -- before, the body is nothing, so what stands under `next` would have to be null
  have hread : ofJson w.withoutNulls = .ok nothing := by
    have hlast := (List.cons.inj (List.cons.inj hsame).2).1
    rwa [link_withoutNulls hkeys, link_read, hnext, hchild, Option.map_some, Option.map_some,
      Option.getD_some, Option.getD_some, ofJson_null] at hlast
  have hnull := ofJson_eq_nothing_iff.mp hread
  exact hw ((Json.withoutNulls_eq_iff (by simp)).mp hnull)

/-- A link that holds something is still looked up. -/
theorem mem_linkKeys_withoutNulls (hkeys : (entries.map Prod.fst).Nodup) {key : String} {w : Json}
    (hkey : key ∈ op.linkKeys (bodyKey entries)) (hfound : lookupEntry key entries = some w)
    (hw : w ≠ .null) : key ∈ op.linkKeys (bodyKey (entriesWithoutNulls entries)) := by
  cases hbody : op.takesBody with
  | false => rwa [op.linkKeys_of_not_takesBody hbody]
  | true =>
    obtain ⟨first, hkeysOf⟩ := op.linkKeys_of_takesBody hbody
    rw [hkeysOf, List.mem_pair] at hkey ⊢
    refine hkey.imp_right fun hkey => ?_
    subst hkey
    unfold bodyKey at hfound ⊢
    rw [lookupEntry_entriesWithoutNulls hkeys]
    cases hchild : lookupEntry "child" entries with
    | none => rfl
    | some v =>
      -- the body is what stands under `child`, which is not null
      simp only [hchild, Option.isSome_some, if_true, Option.some.injEq] at hfound
      subst hfound
      simp [plugged?_of_ne_null hw]

end Payload

/-! ### Reading without nulls -/

section Reading

variable {op : Opcode} {tag : String} {entries : List (String × Json)} {v w : Json}
  {q : Program}

/-- Induction along the links of nodes; what is no node has none. -/
theorem node_induction {P : Json → Prop}
    (other : ∀ v, (∀ tag entries, v ≠ .array [.string tag, .object entries]) → P v)
    (node : ∀ tag entries, (∀ key w, lookupEntry key entries = some w → P w) →
      P (.array [.string tag, .object entries])) (v : Json) : P v := by
  induction v using link_induction with
  | step v ih =>
    by_cases hnode : ∃ tag entries, v = .array [.string tag, .object entries]
    · obtain ⟨tag, entries, rfl⟩ := hnode
      exact node tag entries fun key w hw => ih tag entries key w rfl hw
    · exact other v fun tag entries h => hnode ⟨tag, entries, h⟩

/-- What stands in a node is the node itself or stands below one of its links. -/
theorem PlacedIn.node (h : PlacedIn w (.array [.string op.name, .object entries])) :
    w = .array [.string op.name, .object entries] ∨
      ∃ key ∈ op.linkKeys (bodyKey entries), ∃ v, lookupEntry key entries = some v ∧
        PlacedIn w v := by
  generalize htag : op.name = tag at h
  cases h with
  | here => exact .inl rfl
  | link op' hname hkey hfound hbelow =>
    obtain rfl : op = op' := Opcode.name_injective (htag.trans hname.symm)
    exact .inr ⟨_, hkey, _, hfound, hbelow⟩

/-- A node loses a body if its own is hidden, or if something below one of its links loses
    one. -/
theorem losesBody_node_iff :
    LosesBody (.array [.string op.name, .object entries]) ↔
      (op.takesBody = true ∧ ChildHidesNext entries) ∨
        ∃ key ∈ op.linkKeys (bodyKey entries), ∃ v, lookupEntry key entries = some v ∧
          LosesBody v := by
  constructor
  · rintro ⟨op', entries', hplaced, hbody, hhides⟩
    -- the node itself, or one below a link that is read
    rcases hplaced.node with hhere | ⟨key, hkey, v, hv, hbelow⟩
    · simp only [Json.array.injEq, List.cons.injEq, Json.string.injEq, Json.object.injEq,
        and_true] at hhere
      obtain ⟨hname, rfl⟩ := hhere
      obtain rfl := Opcode.name_injective hname
      exact .inl ⟨hbody, hhides⟩
    · exact .inr ⟨key, hkey, v, hv, op', entries', hbelow, hbody, hhides⟩
  · rintro (⟨hbody, hhides⟩ | ⟨key, hkey, v, hv, op', entries', hbelow, hbody, hhides⟩)
    · exact ⟨op, entries, .here, hbody, hhides⟩
    · exact ⟨op', entries', .link op rfl hkey hv hbelow, hbody, hhides⟩

/-- What is no node loses nothing. -/
theorem LosesBody.exists_node (h : LosesBody v) :
    ∃ (op : Opcode) (entries : List (String × Json)),
      v = .array [.string op.name, .object entries] := by
  obtain ⟨op, entries, hplaced, -⟩ := h
  cases hplaced with
  | here => exact ⟨op, entries, rfl⟩
  | link op' hname => exact ⟨op', _, by rw [hname]⟩

/-- Where no body is lost, the nulls may be left out. -/
theorem agree_withoutNulls (v : Json) (hv : v.DistinctKeys) (hkept : ¬LosesBody v) :
    Agree (ofJson v) (ofJson v.withoutNulls) := by
  induction v using node_induction with
  | other v hother =>
    rw [Json.withoutNulls_eq_self hother]
    exact .refl _
  | node tag entries ih =>
    obtain ⟨hkeys, hmembers⟩ := Json.distinctKeys_node.mp hv
    rw [Json.withoutNulls_node, ofJson_pair, ofJson_pair]
    refine Opcode.dispatch_agree fun op hname => ?_
    subst hname
    obtain ⟨hhides, hbelow⟩ := not_or.mp (mt losesBody_node_iff.mpr hkept)
    refine Payload.node_agree rfl (Payload.flag_withoutNulls hkeys _)
      (Payload.text_withoutNulls hkeys) ?_
    rw [Payload.linked_withoutNulls hkeys fun hbody hchild => hhides ⟨hbody, hchild⟩,
      Payload.linked_read, List.forall₂_map_left_iff, List.forall₂_map_right_iff,
      List.forall₂_same]
    -- each link is read from a smaller value
    intro key hkey
    rw [Payload.link_read, Payload.link_withoutNulls hkeys]
    cases hw : lookupEntry key entries with
    | none => exact .refl _
    | some w =>
      exact ih key w hw (hmembers.of_lookupEntry hw) fun hlost =>
        hbelow ⟨key, hkey, w, hw, hlost⟩

/-- If a node reads the same without nulls, then its own body is not hidden, and each of its
    links reads the same. -/
theorem links_of_node_withoutNulls (hkeys : (entries.map Prod.fst).Nodup)
    (hread : (Payload.read op entries).node = .ok q)
    (hread' : (Payload.read op (entriesWithoutNulls entries)).node = .ok q) :
    ¬(op.takesBody = true ∧ ChildHidesNext entries) ∧
      ∀ key ∈ op.linkKeys (bodyKey entries), ∀ w, lookupEntry key entries = some w →
        ∃ r, ofJson w = .ok r ∧ ofJson w.withoutNulls = .ok r := by
  have hlinked := Payload.linked_of_node hread
  have hsame : (Payload.read op (entriesWithoutNulls entries)).linked
      = (Payload.read op entries).linked := (Payload.linked_of_node hread').trans hlinked.symm
  have hhides : ¬(op.takesBody = true ∧ ChildHidesNext entries) :=
    fun h => Payload.linked_withoutNulls_ne hkeys h.1 h.2 hsame
  refine ⟨hhides, fun key hkey w hw => ?_⟩
  rw [Payload.linked_withoutNulls hkeys fun hbody hchild => hhides ⟨hbody, hchild⟩,
    Payload.linked_read] at hsame
  have hlink := List.map_inj_left.mp hsame key hkey
  rw [Payload.link_withoutNulls hkeys, Payload.link_read, hw] at hlink
  -- what the link reads as is in a slot
  have hmem : ofJson w ∈ q.slots.map Except.ok := by
    rw [← hlinked, Payload.linked_read]
    refine List.mem_map.mpr ⟨key, hkey, ?_⟩
    rw [Payload.link_read, hw]
    rfl
  obtain ⟨r, -, hr⟩ := List.mem_map.mp hmem
  exact ⟨r, hr.symm, hlink.trans hr.symm⟩

/-- What reads the same without nulls has lost no body. -/
theorem not_losesBody (v : Json) (hv : v.DistinctKeys) (hread : ofJson v = .ok q)
    (hread' : ofJson v.withoutNulls = .ok q) : ¬LosesBody v := by
  induction v using node_induction generalizing q with
  | other v hother =>
    intro hlost
    obtain ⟨op, entries, hnode⟩ := hlost.exists_node
    exact hother _ entries hnode
  | node tag entries ih =>
    obtain ⟨hkeys, hmembers⟩ := Json.distinctKeys_node.mp hv
    rw [Json.withoutNulls_node] at hread'
    rw [ofJson_pair] at hread hread'
    obtain ⟨op, rfl, hnode⟩ := Opcode.dispatch_eq_ok_iff.mp hread
    rw [Opcode.dispatch_name] at hread'
    -- the two readings agree on every link, so none of them loses a body either
    obtain ⟨hhides, hlinks⟩ := links_of_node_withoutNulls hkeys hnode hread'
    intro hlost
    rcases losesBody_node_iff.mp hlost with hhere | ⟨key, hkey, w, hw, hbelow⟩
    · exact hhides hhere
    · obtain ⟨r, hr, hr'⟩ := hlinks key hkey w hw
      exact ih key w hw (hmembers.of_lookupEntry hw) hr hr' hbelow

/-- Leaving out nulls does not mend anything. -/
theorem exists_ofJson_of_withoutNulls (v : Json) (hv : v.DistinctKeys)
    (h : ∃ p, ofJson v.withoutNulls = .ok p) : ∃ p, ofJson v = .ok p := by
  induction v using node_induction with
  | other v hother => rwa [Json.withoutNulls_eq_self hother] at h
  | node tag entries ih =>
    obtain ⟨hkeys, hmembers⟩ := Json.distinctKeys_node.mp hv
    obtain ⟨p, hp⟩ := h
    rw [Json.withoutNulls_node, ofJson_pair] at hp
    obtain ⟨op, rfl, hread⟩ := Opcode.dispatch_eq_ok_iff.mp hp
    obtain ⟨hbare, htexts, hlinks⟩ := (Payload.exists_node_iff _).mp ⟨p, hread⟩
    rw [ofJson_pair, Opcode.dispatch_name]
    refine (Payload.exists_node_iff _).mpr ⟨hbare, fun k hk => ?_, fun key hkey => ?_⟩
    · rw [← Payload.text_withoutNulls hkeys]
      exact htexts k hk
    -- a link that stood under `null` is empty, any other is kept
    · rw [Payload.bodyKey_links_read] at hkey hlinks
      rw [Payload.link_read]
      cases hw : lookupEntry key entries with
      | none => exact ⟨nothing, rfl⟩
      | some w =>
        rcases eq_or_ne w .null with rfl | hne
        · exact ⟨nothing, ofJson_null⟩
        · obtain ⟨r, hr⟩ := hlinks key (Payload.mem_linkKeys_withoutNulls hkeys hkey hw hne)
          rw [Payload.link_withoutNulls hkeys, hw] at hr
          exact ih key w hw (hmembers.of_lookupEntry hw) ⟨r, hr⟩

end Reading

/-- **Nulls may be left out exactly if no body is lost.**  Then the two values read as the same
    program, or are refused for faults of one kind.  Where a `child` that holds null hides a
    body, that body comes to light: what was read becomes something else or is refused, and
    what was refused stays so. -/
theorem ofJson_withoutNulls (v : Json) (hv : v.DistinctKeys) :
    (¬LosesBody v → Agree (ofJson v) (ofJson v.withoutNulls)) ∧
      (∀ p, ofJson v = .ok p → (ofJson v.withoutNulls = .ok p ↔ ¬LosesBody v)) ∧
      ((∃ p, ofJson v.withoutNulls = .ok p) → ∃ p, ofJson v = .ok p) := by
  refine ⟨agree_withoutNulls v hv, fun p hp => ⟨fun hp' => not_losesBody v hv hp hp', ?_⟩,
    exists_ofJson_of_withoutNulls v hv⟩
  intro hkept
  have hagree := agree_withoutNulls v hv hkept
  rw [hp] at hagree
  exact hagree.eq_ok

/-- A circle under a rotation whose `child` is null. -/
def hiddenCircle : Json :=
  .array [.string "rotate", .object [("degrees", .array [.string "string", .string "45"]),
    ("child", .null), ("next", .array [.string "circle", .object []])]]

/-- The circle is not read, and it is if the null is left out. -/
theorem ofJson_withoutNulls_hiddenCircle :
    ofJson hiddenCircle = .ok (.rotate false (.string false "45") .nothing) ∧
      ofJson hiddenCircle.withoutNulls
        = .ok (.rotate false (.string false "45") (.circle false .nothing .nothing .nothing)) ∧
      LosesBody hiddenCircle := by
  have hdistinct : hiddenCircle.DistinctKeys := by
    simp [hiddenCircle, Json.DistinctKeys, Json.DistinctItems, Json.DistinctMembers]
  have hread : ofJson hiddenCircle = .ok (.rotate false (.string false "45") .nothing) := rfl
  have hread' : ofJson hiddenCircle.withoutNulls
      = .ok (.rotate false (.string false "45") (.circle false .nothing .nothing .nothing)) := rfl
  refine ⟨hread, hread', ?_⟩
  by_contra hkept
  have hsame := ((ofJson_withoutNulls hiddenCircle hdistinct).2.1 _ hread).mpr hkept
  rw [hread'] at hsame
  cases hsame

end Program

end BlockChart
