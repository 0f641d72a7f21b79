import BlockChart.Drawing.Basic

namespace BlockChart.Drawing

/-!
# The elements of a drawing after a write

What the arena holds once an element has been changed or added.  Tags are set when an
element is made and stay; programs use few of them, and few names of attributes:

* `get?_modify_cases` and `get?_append_cases` — where an element comes from;
* `shapeTags` and `attributeNames` — the words that a program draws with;
* `tag?_modify` and `tag?_append` — tags stay.
-/

/-- The number of elements of a drawing. -/
abbrev size (d : Drawing) : Nat :=
  d.elements.size

@[simp] theorem size_setAttribute (d : Drawing) (c : ElementId) (name value : String) :
    (d.setAttribute c name value).size = d.size := Array.size_modify

@[simp] theorem size_setStyle (d : Drawing) (c : ElementId) (name value : String) :
    (d.setStyle c name value).size = d.size := Array.size_modify

@[simp] theorem size_setText (d : Drawing) (c : ElementId) (content : String) :
    (d.setText c content).size = d.size := Array.size_modify

/-- A new element makes the drawing longer by one. -/
@[simp] theorem size_append (d : Drawing) (c : ElementId) (tag : String) :
    (d.append c tag).2.size = d.size + 1 :=
  Array.size_modify.trans (Array.size_push _)

variable {d : Drawing} {c i : ElementId}

/-- An element below the size is there. -/
theorem exists_get?_of_lt (hi : i < d.size) : ∃ e, d.get? i = some e :=
  ⟨_, Array.getElem?_eq_getElem hi⟩

/-- An element that is found is in the drawing. -/
theorem lt_size_of_get? {e : Element} (h : d.get? i = some e) : i < d.size :=
  (Array.getElem?_eq_some_iff.mp h).1

/-! ### Writing to one element -/

variable {change : Element → Element}

/-- A change leaves the other elements alone. -/
theorem get?_modify_of_ne (hi : i ≠ c) : (d.modify c change).get? i = d.get? i := by
  show (d.elements.modify c change)[i]? = d.elements[i]?
  rw [Array.getElem?_modify, if_neg hi.symm]

/-- The element that is changed, if it is there. -/
theorem get?_modify_self : (d.modify c change).get? c = (d.get? c).map change := by
  show (d.elements.modify c change)[c]? = (d.elements[c]?).map change
  rw [Array.getElem?_modify, if_pos rfl]

/-- An element of the changed drawing is one from before, or the changed one. -/
theorem get?_modify_cases {e' : Element} (h : (d.modify c change).get? i = some e') :
    ∃ e, d.get? i = some e ∧ (e' = e ∨ i = c ∧ e' = change e) := by
  by_cases hi : i = c
  · subst hi
    rw [get?_modify_self, Option.map_eq_some_iff] at h
    obtain ⟨e, he, rfl⟩ := h
    exact ⟨e, he, .inr ⟨rfl, rfl⟩⟩
  · rw [get?_modify_of_ne hi] at h
    exact ⟨e', h, .inl rfl⟩

/-! ### Adding an element -/

variable {p : ElementId} {tag : String}

/-- The elements before, but for the parent. -/
theorem get?_append_of_ne (hi : i < d.size) (hp : i ≠ p) :
    (d.append p tag).2.get? i = d.get? i := by
  refine (get?_modify_of_ne hp).trans ?_
  show (d.elements.push _)[i]? = d.elements[i]?
  rw [Array.getElem?_push_lt hi, Array.getElem?_eq_getElem hi]

/-- The parent has one more child. -/
theorem get?_append_parent (hp : p < d.size) :
    (d.append p tag).2.get? p
      = (d.get? p).map fun e => { e with children := e.children ++ [d.size] } := by
  refine get?_modify_self.trans ?_
  congr 1
  show (d.elements.push _)[p]? = d.elements[p]?
  rw [Array.getElem?_push_lt hp, Array.getElem?_eq_getElem hp]

/-- The new element. -/
theorem get?_append_new (hp : p < d.size) :
    (d.append p tag).2.get? d.size = some (.plain tag (some p)) := by
  refine (get?_modify_of_ne (Nat.ne_of_gt hp)).trans ?_
  exact Array.getElem?_push_size

/-- What is found after an element has been added: the new one, or one from before with
    the new one as last child if that is its parent. -/
theorem get?_append_cases {e' : Element} (hp : p < d.size)
    (h : (d.append p tag).2.get? i = some e') :
    (i = d.size ∧ e' = .plain tag (some p)) ∨
      (∃ e, d.get? i = some e ∧
        e' = { e with children := e.children ++ if i = p then [d.size] else [] }) := by
  have hi : i < d.size + 1 := (size_append d p tag) ▸ lt_size_of_get? h
  -- the new element, its parent, or one that is left as it was
  by_cases hnew : i = d.size
  · subst hnew
    rw [get?_append_new hp] at h
    exact .inl ⟨rfl, (Option.some.inj h).symm⟩
  · by_cases hip : i = p
    · subst hip
      rw [get?_append_parent hp, Option.map_eq_some_iff] at h
      obtain ⟨e, he, rfl⟩ := h
      exact .inr ⟨e, he, by rw [if_pos rfl]⟩
    · rw [get?_append_of_ne (Nat.lt_of_le_of_ne (Nat.le_of_lt_succ hi) hnew) hip] at h
      exact .inr ⟨e', h, by rw [if_neg hip, List.append_nil]⟩

/-! ### Tags and names -/

/-- The tags of the elements that a program adds. -/
def shapeTags : List String :=
  ["g", "circle", "rect", "text"]

/-- The names of the attributes that a program sets, and that a canvas has. -/
def attributeNames : List String :=
  ["width", "height", "fill", "stroke", "transform", "r"]

/-- The tag of the element of an id. -/
def tag? (d : Drawing) (i : ElementId) : Option String :=
  (d.get? i).map Element.tag

/-- A change that spares the tag. -/
theorem tag?_modify (htag : ∀ e, (change e).tag = e.tag) :
    (d.modify c change).tag? i = d.tag? i := by
  unfold tag?
  by_cases hi : i = c
  · subst hi
    rw [get?_modify_self, Option.map_map]
    congr 1
    exact funext htag
  · rw [get?_modify_of_ne hi]

@[simp] theorem tag?_setAttribute (name value : String) :
    (d.setAttribute c name value).tag? i = d.tag? i := tag?_modify fun _ => rfl

@[simp] theorem tag?_setStyle (name value : String) :
    (d.setStyle c name value).tag? i = d.tag? i := tag?_modify fun _ => rfl

@[simp] theorem tag?_setText (content : String) :
    (d.setText c content).tag? i = d.tag? i := tag?_modify fun _ => rfl

/-- The tags after an element has been added, whatever its parent is. -/
private theorem tag?_append_eq :
    (d.append p tag).2.tag? i = (d.elements.push (.plain tag (some p)))[i]?.map Element.tag :=
  tag?_modify fun _ => rfl

/-- The elements that were there keep their tags. -/
theorem tag?_append (hi : i < d.size) : (d.append p tag).2.tag? i = d.tag? i := by
  rw [tag?_append_eq, Array.getElem?_push_lt hi, ← Array.getElem?_eq_getElem hi]
  rfl

/-- The new element has the tag that it was given. -/
theorem tag?_append_new : (d.append p tag).2.tag? d.size = some tag := by
  rw [tag?_append_eq, Array.getElem?_push_size]
  rfl

end BlockChart.Drawing
