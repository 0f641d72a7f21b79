import BlockChart.Proofs.ContextStack
import Mathlib.Logic.Relation

namespace BlockChart

/-!
# Drawing stays inside the current context

A node draws by adding elements below the innermost context of its frame.  Whatever
else the drawing held is not touched, and of the context itself only the style and the
end of the list of children may change; see `Program.eval_grown`.

* `Drawing.IsChild` and `Drawing.Below` are the tree of the drawing, an element and its
  parent naming each other;
* `Drawing.Grown n c` says how a drawing has grown below `c` since it had `n` elements;
* `Effect.grown` — every effect lets the drawing grow below the innermost context.

No shape of the drawing before is assumed.
-/

namespace Drawing

/-! ### The tree of a drawing -/

/-- Element `i` has the parent `p`, and stands among its children. -/
structure IsChild (d : Drawing) (p i : ElementId) : Prop where
  parent : ∃ e, d.get? i = some e ∧ e.parent = some p
  child : ∃ e, d.get? p = some e ∧ i ∈ e.children

/-- **Strict descendants.** -/
def Below (d : Drawing) : ElementId → ElementId → Prop :=
  Relation.TransGen d.IsChild

/-- No element is lost, none changes its parent, and children are only added at the
    end. -/
def KeepsLinks (d d' : Drawing) : Prop :=
  ∀ i e, d.get? i = some e →
    ∃ e', d'.get? i = some e' ∧ e'.parent = e.parent ∧ e.children <+: e'.children

variable {d d' : Drawing}

/-- Children stay children where links are kept. -/
theorem KeepsLinks.isChild (h : d.KeepsLinks d') {p i : ElementId} (hpi : d.IsChild p i) :
    d'.IsChild p i := by
  obtain ⟨⟨e, he, hparent⟩, q, hq, hmem⟩ := hpi
  obtain ⟨e', he', hparent', -⟩ := h i e he
  obtain ⟨q', hq', -, hprefix⟩ := h p q hq
  exact ⟨⟨e', he', hparent'.trans hparent⟩, q', hq', hprefix.subset hmem⟩

/-- Descendants stay descendants. -/
theorem KeepsLinks.below (h : d.KeepsLinks d') {c i : ElementId} (hci : d.Below c i) :
    d'.Below c i :=
  Relation.TransGen.mono (fun _ _ => h.isChild) c i hci

/-! ### Writing to one element -/

/-- A change that leaves parent and children alone keeps all links. -/
theorem keepsLinks_modify {c : ElementId} {change : Element → Element}
    (hparent : ∀ e, (change e).parent = e.parent)
    (hchildren : ∀ e, (change e).children = e.children) : d.KeepsLinks (d.modify c change) := by
  intro i e he
  by_cases hi : i = c
  · subst hi
    refine ⟨change e, ?_, hparent e, ?_⟩
    · rw [get?_modify_self, he, Option.map_some]
    · simp only [hchildren e, List.prefix_rfl]
  · exact ⟨e, (get?_modify_of_ne hi).trans he, rfl, List.prefix_rfl⟩

/-! ### Adding an element -/

variable {p : ElementId} {tag : String}

/-- An append adds a link and cuts none. -/
theorem keepsLinks_append (hp : p < d.size) : d.KeepsLinks (d.append p tag).2 := by
  intro i e he
  have hi : i < d.size := lt_size_of_get? he
  by_cases hip : i = p
  · subst hip
    refine ⟨{ e with children := e.children ++ [d.size] }, ?_, rfl, List.prefix_append _ _⟩
    rw [get?_append_parent hp, he, Option.map_some]
  · exact ⟨e, (get?_append_of_ne hi hip).trans he, rfl, List.prefix_rfl⟩

/-- The new element is a child of the one that it was added to. -/
theorem isChild_append (hp : p < d.size) : (d.append p tag).2.IsChild p d.size := by
  obtain ⟨e, he⟩ := exists_get?_of_lt hp
  refine ⟨⟨_, get?_append_new hp, rfl⟩, { e with children := e.children ++ [d.size] }, ?_, ?_⟩
  · rw [get?_append_parent hp, he, Option.map_some]
  · exact List.mem_append_right _ (List.mem_singleton.mpr rfl)

/-! ### Growing below one element -/

/-- **Growth below `c`** of a drawing that had `n` elements at first.  Of these, all but
    `c` are the same; `c` keeps tag, attributes, text and parent, and its children come
    first among the new ones; all later elements are below `c`. -/
structure Grown (n : Nat) (c : ElementId) (d d' : Drawing) : Prop where
  others : ∀ i < n, i ≠ c → d'.get? i = d.get? i
  context : ∀ e, d.get? c = some e → ∃ e', d'.get? c = some e' ∧ e'.tag = e.tag ∧
    e'.attributes = e.attributes ∧ e'.text = e.text ∧ e'.parent = e.parent ∧
    e.children <+: e'.children
  added : ∀ i, n ≤ i → i < d'.size → d'.Below c i

/-- All elements from the `n`-th on are below `c`. -/
def AllBelow (d : Drawing) (n : Nat) (c : ElementId) : Prop :=
  ∀ i, n ≤ i → i < d.size → d.Below c i

/-- Past the end of a drawing there is no element. -/
theorem allBelow_size (d : Drawing) (c : ElementId) : d.AllBelow d.size c :=
  fun _ hi hi' => absurd hi' (Nat.not_lt_of_le hi)

namespace Grown

variable {n : Nat} {c : ElementId} {d d' d₁ d₂ : Drawing}

/-- Nothing happens to the context. -/
theorem of_same (hothers : ∀ i < n, d'.get? i = d.get? i) (hc : c < n)
    (hadded : d'.AllBelow n c) : Grown n c d d' :=
  ⟨fun i hi _ => hothers i hi,
    fun e he => ⟨e, (hothers c hc).trans he, rfl, rfl, rfl, rfl, List.prefix_rfl⟩, hadded⟩

/-- Growth below `c`, and then more of it. -/
theorem trans (h₁ : Grown n c d d₁) (h₂ : Grown n c d₁ d₂) : Grown n c d d₂ := by
  refine ⟨fun i hi hic => (h₂.others i hi hic).trans (h₁.others i hi hic), ?_, h₂.added⟩
  intro e he
  obtain ⟨e₁, he₁, htag, hattr, htext, hparent, hprefix⟩ := h₁.context e he
  obtain ⟨e₂, he₂, htag', hattr', htext', hparent', hprefix'⟩ := h₂.context e₁ he₁
  exact ⟨e₂, he₂, htag'.trans htag, hattr'.trans hattr, htext'.trans htext,
    hparent'.trans hparent, hprefix.trans hprefix'⟩

/-- A drawing that grew since it was `d` kept all links of `d`. -/
theorem keepsLinks (h : Grown d.size c d d') : d.KeepsLinks d' := by
  intro i e he
  by_cases hi : i = c
  · subst hi
    obtain ⟨e', he', -, -, -, hparent, hprefix⟩ := h.context e he
    exact ⟨e', he', hparent, hprefix⟩
  · have hlt : i < d.size := lt_size_of_get? he
    exact ⟨e, (h.others i hlt hi).trans he, rfl, List.prefix_rfl⟩

/-- Growth below a later element `g` is growth below the context. -/
theorem inside {g : ElementId} (h : Grown d.size g d d') (hc : c < n) (hg : n ≤ g)
    (hn : n ≤ d.size) (hcg : d.Below c g) (hown : d.AllBelow n c) :
    Grown n c d d' := by
  refine of_same (fun i hi => ?_) hc fun i hi hi' => ?_
  · exact h.others i (Nat.lt_of_lt_of_le hi hn) (Nat.ne_of_lt (Nat.lt_of_lt_of_le hi hg))
  · by_cases hid : i < d.size
    · exact h.keepsLinks.below (hown i hi hid)
    · exact (h.keepsLinks.below hcg).trans (h.added i (Nat.le_of_not_lt hid) hi')

/-- Writing to a later element, links apart. -/
theorem modify_own {g : ElementId} {change : Element → Element} (hc : c < n) (hg : n ≤ g)
    (hown : d.AllBelow n c)
    (hparent : ∀ e, (change e).parent = e.parent)
    (hchildren : ∀ e, (change e).children = e.children) :
    Grown n c d (d.modify g change) := by
  have hsize : (d.modify g change).size = d.size := Array.size_modify
  refine of_same (fun i hi => ?_) hc fun i hi hi' => ?_
  · exact get?_modify_of_ne (Nat.ne_of_lt (Nat.lt_of_lt_of_le hi hg))
  · rw [hsize] at hi'
    exact (keepsLinks_modify hparent hchildren).below (hown i hi hi')

/-- Styling the context. -/
theorem setStyle_context (name value : String)
    (hown : d.AllBelow n c) : Grown n c d (d.setStyle c name value) := by
  have hlinks : d.KeepsLinks (d.setStyle c name value) :=
    keepsLinks_modify (fun _ => rfl) (fun _ => rfl)
  refine ⟨fun i _ hic => get?_modify_of_ne hic, fun e he => ?_, fun i hi hi' => ?_⟩
  · refine ⟨{ e with style := upsertEntry name value e.style }, ?_, rfl, rfl, rfl, rfl,
      List.prefix_rfl⟩
    show (d.modify c _).get? c = _
    rw [get?_modify_self, he, Option.map_some]
  · rw [size_setStyle] at hi'
    exact hlinks.below (hown i hi hi')

/-- Appending to `p`, which is the context or below it. -/
theorem append {p : ElementId} (tag : String) (hc : c < n) (hn : n ≤ d.size) (hp : p < d.size)
    (hcp : p = c ∨ n ≤ p) (hown : d.AllBelow n c) :
    Grown n c d (d.append p tag).2 := by
  have hlinks : d.KeepsLinks (d.append p tag).2 := keepsLinks_append hp
  refine ⟨fun i hi hic => ?_, fun e he => ?_, fun i hi hi' => ?_⟩
  -- an older element that is not the context is not the parent either
  · refine get?_append_of_ne (Nat.lt_of_lt_of_le hi hn) ?_
    rcases hcp with rfl | hp'
    · exact hic
    · exact Nat.ne_of_lt (Nat.lt_of_lt_of_le hi hp')
  -- the context gets a child, or stays as it is
  · by_cases hpc : c = p
    · subst hpc
      refine ⟨{ e with children := e.children ++ [d.size] }, ?_, rfl, rfl, rfl, rfl,
        List.prefix_append _ _⟩
      rw [get?_append_parent hp, he, Option.map_some]
    · exact ⟨e, (get?_append_of_ne (Nat.lt_of_lt_of_le hc hn) hpc).trans he, rfl, rfl, rfl, rfl,
        List.prefix_rfl⟩
  · rw [size_append] at hi'
    by_cases hid : i < d.size
    · exact hlinks.below (hown i hi hid)
    · -- the new element is a child of `p`
      obtain rfl : i = d.size := by omega
      rcases hcp with rfl | hp'
      · exact .single (isChild_append hp)
      · exact .tail (hlinks.below (hown p hp' hp)) (isChild_append hp)

end Grown

end Drawing

/-! ### Effects and programs -/

/-- **Effects draw below the innermost context**, if that is an element from before and
    all elements of the node's own are below it already. -/
theorem Effect.grown {n : Nat} {f : FrameId} {s s' : Session} {o : Option Fault}
    {c : ElementId} (h : Effect n f s o s') (htop : s.scopes.top f = .ok c) (hc : c < n)
    (hn : n ≤ s.drawing.size) (hown : s.drawing.AllBelow n c) :
    s.drawing.Grown n c s'.drawing := by
  induction h generalizing c with
  | idle => exact .of_same (fun _ _ => rfl) hc hown
  | fault e => exact .of_same (fun _ _ => rfl) hc hown
  | seq first _ ih₁ ih₂ =>
    have h₁ := ih₁ htop hc hn hown
    exact h₁.trans (ih₂ ((first.top_eq _).trans htop) hc
      (Nat.le_trans hn first.residue.grows) h₁.added)
  | assign _ => exact .of_same (fun _ _ => rfl) hc hown
  | @append _ _ _ _ tag _ spot =>
    rcases spot with htop' | made
    · obtain rfl := Except.ok.inj (htop'.symm.trans htop)
      exact .append tag hc hn (Nat.lt_of_lt_of_le hc hn) (.inl rfl) hown
    · exact .append tag hc hn made.own.2 (.inr made.own.1) hown
  | setAttribute _ value own =>
    exact .modify_own hc own.1 hown (fun _ => rfl) (fun _ => rfl)
  | setStyle name value reach =>
    rcases reach with htop' | own
    · obtain rfl := Except.ok.inj (htop'.symm.trans htop)
      exact .setStyle_context name value hown
    · exact .modify_own hc own.1 hown (fun _ => rfl) (fun _ => rfl)
  | setText content made =>
    exact .modify_own hc made.own.1 hown (fun _ => rfl) (fun _ => rfl)
  | inContext made push _ _ ih =>
    obtain ⟨own, -⟩ := made
    -- the body draws below the element of the bracket, before which all is old
    have hbody := ih (Scopes.top_of_push push) own.2 (Nat.le_refl _) (Drawing.allBelow_size _ _)
    exact hbody.inside hc own.1 hn (hown _ own.1 own.2) hown
  | faultInContext made push _ ih =>
    obtain ⟨own, -⟩ := made
    have hbody := ih (Scopes.top_of_push push) own.2 (Nat.le_refl _) (Drawing.allBelow_size _ _)
    exact hbody.inside hc own.1 hn (hown _ own.1 own.2) hown
  | inFrame _ _ ih => exact ih (Scopes.top_openFrame htop) hc hn hown
  | nested _ ih => exact ih htop hc hn hown

/-- An action that keeps to the effects of its frame draws below the innermost
    context. -/
theorem Action.KeepsTo.grown {α : Type} {a : Action α} {f : FrameId} {s : Session}
    {c : ElementId} (h : Action.KeepsTo f a) (htop : s.scopes.top f = .ok c)
    (hc : c < s.drawing.size) :
    s.drawing.Grown s.drawing.size c (a.run s).2.drawing := by
  have he : Action.HasEffect a s.drawing.size f s :=
    h _ s ⟨Scopes.live_of_top htop, Nat.le_refl _⟩
  exact Effect.grown he htop hc (Nat.le_refl _) (Drawing.allBelow_size _ _)

/-- **Drawing is append-only and confined to the current context.**  Whether a node
    ends well or fails, every element from before but the innermost context is the same;
    the context keeps tag, attributes, text, parent and the children that it had, in
    front; and all new elements are strict descendants of it. -/
theorem Program.eval_grown (limit : Nat) (p : Program) (f : FrameId) (s : Session)
    (c : ElementId) (htop : s.scopes.top f = .ok c) (hc : c < s.drawing.size) :
    s.drawing.Grown s.drawing.size c ((p.eval limit f).run s).2.drawing :=
  (p.eval_keepsTo limit f).grown htop hc

/-- After `strayCircle` has failed, element 1 of three is the innermost context, and
    what is drawn next stays inside it. -/
theorem Program.eval_grown_after_strayCircle :
    ((strayCircle.run 8).run .blank).2.scopes.top Scopes.root = .ok 1 ∧
      ((strayCircle.run 8).run .blank).2.drawing.size = 3 ∧
      ((strayCircle.run 8).run .blank).2.drawing.Grown 3 1
        ((shiftedCircle.eval 8 Scopes.root).run ((strayCircle.run 8).run .blank).2).2.drawing :=
  ⟨rfl, rfl, Program.eval_grown 8 shiftedCircle Scopes.root ((strayCircle.run 8).run .blank).2 1
    rfl (by decide)⟩

end BlockChart
