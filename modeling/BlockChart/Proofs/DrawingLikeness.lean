import BlockChart.Proofs.BoxLocality
import BlockChart.Proofs.Likeness

namespace BlockChart

/-!
# Drawings element by element

Two drawings are compared through a relation between the elements of the same id.

* `Drawing.Related` is such a comparison, with `Related.modify` and `Related.append` for
  what is written to both drawings;
* `Related.bounds_eq` — a box depends on nothing but tags, attributes, texts and children;
* `ElementLikeness.likeness` makes a likeness of runs out of a relation that survives the
  same writes on both sides.
-/

namespace Drawing

/-- **Related drawings**: they have the same ids, and the elements of an id are related. -/
structure Related (R : ElementId → Element → Element → Prop) (d d' : Drawing) : Prop where
  size_eq : d'.size = d.size
  element : ∀ i e e', d.get? i = some e → d'.get? i = some e' → R i e e'

namespace Related

variable {R : ElementId → Element → Element → Prop} {d d' : Drawing}

/-- A write to the element of one id. -/
theorem modify (h : Related R d d') {c : ElementId} {change change' : Element → Element}
    (hchange : ∀ e e', d.get? c = some e → d'.get? c = some e' →
      R c e e' → R c (change e) (change' e')) :
    Related R (d.modify c change) (d'.modify c change') := by
  refine ⟨?_, fun i e e' he he' => ?_⟩
  · rw [size, size, Drawing.modify, Drawing.modify, Array.size_modify, Array.size_modify]
    exact h.size_eq
  · by_cases hi : i = c
    · subst hi
      rw [get?_modify_self, Option.map_eq_some_iff] at he he'
      obtain ⟨a, ha, rfl⟩ := he
      obtain ⟨a', ha', rfl⟩ := he'
      exact hchange a a' ha ha' (h.element i a a' ha ha')
    · rw [get?_modify_of_ne hi] at he he'
      exact h.element i e e' he he'

/-- A write to the first drawing alone. -/
theorem modify_left (h : Related R d d') {c : ElementId} {change : Element → Element}
    (hchange : ∀ e e', R c e e' → R c (change e) e') : Related R (d.modify c change) d' := by
  refine ⟨?_, fun i e e' he he' => ?_⟩
  · rw [size, size, Drawing.modify, Array.size_modify]
    exact h.size_eq
  · obtain ⟨a, ha, rfl | ⟨rfl, rfl⟩⟩ := get?_modify_cases he
    · exact h.element i e e' ha he'
    · exact hchange a e' (h.element i a e' ha he')

/-- A new element, not yet below any other. -/
theorem push (h : Related R d d') {a a' : Element} (ha : R d.size a a') :
    Related R ⟨d.elements.push a⟩ ⟨d'.elements.push a'⟩ := by
  have hsize : d'.elements.size = d.elements.size := h.size_eq
  refine ⟨?_, fun i e e' he he' => ?_⟩
  · rw [size, size, Array.size_push, Array.size_push, hsize]
  · simp only [get?, Array.getElem?_push, hsize] at he he'
    by_cases hi : i = d.elements.size
    · rw [if_pos hi] at he he'
      cases he
      cases he'
      exact hi ▸ ha
    · rw [if_neg hi] at he he'
      exact h.element i e e' he he'

/-- A new element below the same parent. -/
theorem append (h : Related R d d') {parent : ElementId} {tag tag' : String}
    (hnew : R d.size (.plain tag (some parent)) (.plain tag' (some parent)))
    (hchild : ∀ e e', R parent e e' →
      R parent { e with children := e.children ++ [d.size] }
        { e' with children := e'.children ++ [d.size] }) :
    Related R (d.append parent tag).2 (d'.append parent tag').2 := by
  have hsize : d'.elements.size = d.elements.size := h.size_eq
  refine (h.push hnew).modify fun e e' _ _ he => ?_
  rw [hsize]
  exact hchild e e' he

end Related

end Drawing

/-! ### Boxes -/

/-- Elements that have all in common that a box depends on. -/
structure Element.SameExtent (e e' : Element) : Prop where
  tag : e'.tag = e.tag
  attributes : e'.attributes = e.attributes
  text : e'.text = e.text
  children : e'.children = e.children

/-- The same extent is the same shape. -/
theorem Element.SameExtent.sameShape {e e' : Element} (h : e.SameExtent e') : e.SameShape e' :=
  ⟨h.tag, h.text, fun _ _ => by rw [h.attributes]⟩

namespace Drawing.Related

variable {R : ElementId → Element → Element → Prop} {d d' : Drawing}

/-- All that counts for a box is the same in both drawings. -/
theorem subtreeKept (h : Related R d d') (hR : ∀ i e e', R i e e' → e.SameExtent e')
    (i : ElementId) : SubtreeKept d d' i := by
  -- where both have an element the two agree by `hR`, and past the end neither has one
  have hkept : ∀ j, ShapeKept d d' j ∧ TransformKept d d' j := by
    intro j
    by_cases hj : j < d.size
    · obtain ⟨e, he⟩ := exists_get?_of_lt hj
      obtain ⟨e', he'⟩ := exists_get?_of_lt (h.size_eq ▸ hj)
      have hsame := hR j e e' (h.element j e e' he he')
      constructor
      · refine .present he he' hsame.sameShape ?_ (List.forall_mem_nil _)
        rw [hsame.children, List.append_nil]
      · rw [TransformKept, attributeOf?, attributeOf?, he, he', Option.bind_some, Option.bind_some,
          hsame.attributes]
    · have hsize : d.size ≤ j := Nat.le_of_not_lt hj
      have hbefore : d.get? j = none := get?_of_size_le hsize
      have hafter : d'.get? j = none := get?_of_size_le (h.size_eq ▸ hsize)
      exact ⟨.absent hbefore hafter, .of_get?_eq (hafter.trans hbefore.symm)⟩
  exact ⟨fun j _ => (hkept j).1, fun j _ => (hkept j).2⟩

/-- **Boxes depend on tags, attributes, texts and children only.** -/
theorem bounds_eq {α : Type} [Scalar α] [NumberText α] (h : Related R d d')
    (hR : ∀ i e e', R i e e' → e.SameExtent e') (i : ElementId) :
    (d'.bounds i : Box α) = d.bounds i :=
  (h.subtreeKept hR i).bounds_eq

end Drawing.Related

/-! ### Likenesses -/

/-- **A relation between elements that survives writing**: new elements are related, and
    related elements stay so when the same is done to both. -/
structure ElementLikeness where
  alike : ElementId → Element → Element → Prop
  plain (i : ElementId) (tag : String) (parent : Option ElementId) :
    alike i (.plain tag parent) (.plain tag parent)
  addChild {i : ElementId} {e e' : Element} (c : ElementId) : alike i e e' →
    alike i { e with children := e.children ++ [c] } { e' with children := e'.children ++ [c] }
  setAttribute {i : ElementId} {e e' : Element} (name value : String) : alike i e e' →
    alike i { e with attributes := upsertEntry name value e.attributes }
      { e' with attributes := upsertEntry name value e'.attributes }
  setStyle {i : ElementId} {e e' : Element} (name value : String) : alike i e e' →
    alike i { e with style := upsertEntry name value e.style }
      { e' with style := upsertEntry name value e'.style }
  setText {i : ElementId} {e e' : Element} (content : String) : alike i e e' →
    alike i { e with text := some content } { e' with text := some content }

/-- **The likeness of runs** whose drawings are related element by element. -/
def ElementLikeness.likeness (E : ElementLikeness) (excused : Fault → Prop) : Likeness where
  drawing := Drawing.Related E.alike
  strays := fun _ _ => True
  spelling := Eq
  excused := excused
  size_eq := fun h => h.size_eq
  append := fun _ _ h => h.append (E.plain ..) fun _ _ => E.addChild _
  setAttribute := fun _ _ _ h => h.modify fun _ _ _ _ => E.setAttribute _ _
  setStyle := fun _ _ _ h => h.modify fun _ _ _ _ => E.setStyle _ _
  setText := fun _ _ h => h.modify fun _ _ _ _ => E.setText _
  goAstray := fun _ h => h

end BlockChart
