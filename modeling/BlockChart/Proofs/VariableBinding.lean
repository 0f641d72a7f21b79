import BlockChart.Proofs.Entries
import BlockChart.Proofs.ScopeArena
import Mathlib.Logic.Relation

namespace BlockChart.Scopes

/-!
# Binding a variable and looking it up

A look-up climbs from its frame to the parent, and on to the root, until a frame binds the
name.  So a new binding is found from its own frame and from every frame below it, unless a
frame in between binds the name already; all other look-ups answer as before.

* `HasParent` and `OnChain` are the links between frames, which come back to no frame if the
  arena is `Acyclic`; `OpenTo` says that a search gets from one frame up to another;
* `WellFormed.find_of_frame` is one step of a search, `WellFormed.openTo_iff` one step of
  `OpenTo`;
* `Rooted.find_of_openTo` and `Rooted.find_of_not_openTo` — what a search finds once there is
  something to be found in a frame;
* `after_assign_lookup` — the law for variables.
-/

section

variable {α : Type} {pick : Frame → Option α}

/-! ### Links -/

/-- Frame `p` is the parent of frame `g`. -/
def HasParent (s : Scopes) (g p : FrameId) : Prop :=
  ∃ a, s.frames[g]? = some a ∧ a.parent = some p

/-- Frame `f` is `g` itself or an ancestor of it. -/
def OnChain (s : Scopes) : FrameId → FrameId → Prop :=
  Relation.ReflTransGen s.HasParent

/-- **No frame is its own ancestor.** -/
def Acyclic (s : Scopes) : Prop :=
  ∀ f, ¬ Relation.TransGen s.HasParent f f

/-- **Frame `f` is open to searches from `g`**: it is `g` or an ancestor of it, and on the way
    from `g` up to it, `f` itself left out, there is nothing to pick. -/
structure OpenTo (s : Scopes) (pick : Frame → Option α) (g f : FrameId) : Prop where
  above : s.OnChain g f
  clear : ∀ h, s.OnChain g h → Relation.TransGen s.HasParent h f →
    ∀ a, s.frames[h]? = some a → pick a = none

variable {s t : Scopes} {f g p : FrameId} {a : Frame}

/-- The parent is the one that the frame names. -/
theorem hasParent_of_frame (ha : s.frames[g]? = some a) : s.HasParent g p ↔ a.parent = some p := by
  constructor
  · rintro ⟨b, hb, hparent⟩
    obtain rfl := Option.some.inj (hb.symm.trans ha)
    exact hparent
  · exact fun hparent => ⟨a, ha, hparent⟩

/-- Nothing stands between a frame and itself. -/
theorem Acyclic.openTo_self (h : s.Acyclic) (pick : Frame → Option α) (f : FrameId) :
    s.OpenTo pick f f :=
  ⟨.refl, fun _ hfh hhf => absurd (Relation.TransGen.trans_right hfh hhf) (h f)⟩

/-- What is open to the parent of a frame is open to the frame, if there is nothing to pick in
    it. -/
theorem OpenTo.head (ha : s.frames[g]? = some a) (hnone : pick a = none)
    (hparent : a.parent = some p) (hopen : s.OpenTo pick p f) : s.OpenTo pick g f := by
  refine ⟨.head ((hasParent_of_frame ha).mpr hparent) hopen.above, fun i hgi hif b hb => ?_⟩
  rcases Relation.ReflTransGen.cases_head hgi with rfl | ⟨q, hgq, hqi⟩
  · obtain rfl := Option.some.inj (ha.symm.trans hb)
    exact hnone
  · obtain rfl := Option.some.inj (hparent.symm.trans ((hasParent_of_frame ha).mp hgq))
    exact hopen.clear i hqi hif b hb

namespace WellFormed

/-- Parents come before their children. -/
theorem lt_of_hasParent (h : s.WellFormed) (hgp : s.HasParent g p) : p < g := by
  obtain ⟨a, ha, hparent⟩ := hgp
  by_cases hroot : g = root
  · obtain ⟨b, hb, hnone⟩ := h.root_parent
    subst hroot
    obtain rfl := Option.some.inj (hb.symm.trans ha)
    rw [hnone] at hparent
    cases hparent
  · obtain ⟨q, hq, hqparent⟩ := h.parent g a ha hroot
    obtain rfl := Option.some.inj (hqparent.symm.trans hparent)
    exact hq

/-- Chains go to earlier frames. -/
theorem le_of_onChain (h : s.WellFormed) (hgf : s.OnChain g f) : f ≤ g := by
  induction hgf with
  | refl => exact Nat.le_refl g
  | tail _ hstep ih => exact Nat.le_trans (Nat.le_of_lt (h.lt_of_hasParent hstep)) ih

/-- Strictly so, if they go anywhere. -/
theorem lt_of_transGen (h : s.WellFormed) (hgf : Relation.TransGen s.HasParent g f) : f < g := by
  obtain ⟨p, hgp, hpf⟩ := Relation.TransGen.head'_iff.mp hgf
  exact Nat.lt_of_le_of_lt (h.le_of_onChain hpf) (h.lt_of_hasParent hgp)

/-- So they do not come back. -/
theorem acyclic (h : s.WellFormed) : s.Acyclic :=
  fun _ hloop => Nat.lt_irrefl _ (h.lt_of_transGen hloop)

/-- And every frame is open to searches from itself. -/
theorem openTo_self (h : s.WellFormed) (pick : Frame → Option α) (f : FrameId) :
    s.OpenTo pick f f :=
  h.acyclic.openTo_self pick f

/-- **One step up**: a frame is open to `g` if it is `g`, or if there is nothing to pick in
    `g` and the frame is open to the parent of `g`. -/
theorem openTo_iff (h : s.WellFormed) (ha : s.frames[g]? = some a) :
    s.OpenTo pick g f ↔ g = f ∨ pick a = none ∧ ∃ p, a.parent = some p ∧ s.OpenTo pick p f := by
  constructor
  · rintro ⟨habove, hclear⟩
    rcases Relation.ReflTransGen.cases_head habove with heq | ⟨p, hgp, hpf⟩
    · exact .inl heq
    -- the search went on past `g`, so it found nothing there
    · have hnone : pick a = none :=
        hclear g .refl (Relation.TransGen.head'_iff.mpr ⟨p, hgp, hpf⟩) a ha
      refine .inr ⟨hnone, p, (hasParent_of_frame ha).mp hgp, hpf, fun i hpi => ?_⟩
      exact hclear i (.head hgp hpi)
  · rintro (rfl | ⟨hnone, p, hparent, hopen⟩)
    · exact h.openTo_self pick g
    · exact hopen.head ha hnone hparent

/-! ### Searches -/

/-- **One step of a search.** -/
theorem find_of_frame (h : s.WellFormed) (pick : Frame → Option α) (ha : s.frames[g]? = some a) :
    s.find pick g =
      match pick a with
      | some x => .ok (some (g, x))
      | none =>
        match a.parent with
        | none => .ok none
        | some p => s.find pick p := by
  cases hx : pick a with
  | some x => exact find_of_pick ha hx
  | none =>
    have hlive : s.Live g := (Array.getElem?_eq_some_iff.mp ha).1
    obtain ⟨rounds, hrounds⟩ := Nat.exists_eq_succ_of_ne_zero (Nat.ne_zero_of_lt hlive)
    cases hparent : a.parent with
    | none => simp only [find, hrounds, search, ha, hx, hparent]
    | some p =>
      -- the parent comes before `g`, so it does not matter that one round less is left
      have hlt : p < g := h.lt_of_hasParent ((hasParent_of_frame ha).mpr hparent)
      have hle : g ≤ rounds := Nat.le_of_lt_succ (hrounds ▸ hlive)
      obtain ⟨r, hr⟩ := h.search_stable (Nat.lt_trans hlt hlive) pick
      have hstep : s.find pick g = s.search pick rounds p := by
        simp only [find, hrounds, search, ha, hx, hparent]
      rw [hstep, hr rounds (Nat.lt_of_lt_of_le hlt hle)]
      exact (hr _ (Nat.lt_trans hlt hlive)).symm

end WellFormed

/-- **A change that gives frame `f` something to pick** is found from the frames to which `f` is
    open; the searches from all other frames answer as before. -/
theorem Rooted.find_modify {table : Table} {change : Frame → Frame} {x : α} (h : s.Rooted table)
    (hmod : s.modify f change = .ok t) (hparent : ∀ a, (change a).parent = a.parent)
    (htable : ∀ a, (change a).table = a.table) (hx : ∀ a, pick (change a) = some x)
    (hg : s.Live g) :
    (s.OpenTo pick g f → t.find pick g = .ok (some (f, x))) ∧
      (¬ s.OpenTo pick g f → t.find pick g = s.find pick g) := by
  have ht : t.WellFormed := (h.modify hmod hparent htable).arena
  induction g using Nat.strongRecOn with
  | ind g ih =>
    obtain ⟨a, ha⟩ : ∃ a, s.frames[g]? = some a := ⟨_, Array.getElem?_eq_getElem hg⟩
    by_cases hgf : g = f
    -- at `f` itself the search ends, since the changed frame has an answer
    · subst hgf
      have hself : t.frames[g]? = some (change a) := by
        rw [frames_modify_self hmod, ha, Option.map_some]
      exact ⟨fun _ => find_of_pick hself (hx a),
        fun hclosed => absurd (h.arena.openTo_self pick g) hclosed⟩
    -- at any other frame the search goes on alike, up to the parent
    · have hsame : t.frames[g]? = some a := (frames_modify_of_ne hmod hgf).trans ha
      rw [ht.find_of_frame pick hsame, h.arena.find_of_frame pick ha, h.arena.openTo_iff ha]
      cases hpick : pick a with
      | some y => simp [hgf]
      | none =>
        cases hup : a.parent with
        | none => simp [hgf]
        | some p =>
          have hlt : p < g := h.arena.lt_of_hasParent ((hasParent_of_frame ha).mpr hup)
          simpa [hgf] using ih p hlt (Nat.lt_trans hlt hg)

end

/-! ### Variables -/

/-- What a frame binds a key to. -/
def bound (key : String) (a : Frame) : Option Value :=
  lookupEntry key a.bindings

/-- **Only one variable changes**: frame `f` binds the key to `v`, and all else is the same. -/
structure BindsOnly (s t : Scopes) (f : FrameId) (key : String) (v : Value) : Prop where
  size : t.frames.size = s.frames.size
  others : ∀ i ≠ f, t.frames[i]? = s.frames[i]?
  own : ∃ a b, s.frames[f]? = some a ∧ t.frames[f]? = some b ∧ b.table = a.table ∧
    b.contexts = a.contexts ∧ b.parent = a.parent ∧
    ∀ k, bound k b = if k = key then some v else bound k a

variable {s t : Scopes} {f g : FrameId} {name : String} {v : Value}

/-- Assigning binds the name in that frame, and changes nothing else. -/
theorem bindsOnly_assign (h : s.assign f name v = .ok t) :
    s.BindsOnly t f (lowerCase name) v := by
  obtain ⟨hlive, -⟩ := modify_eq_ok_iff.mp h
  have hself := frames_modify_self h
  rw [Array.getElem?_eq_getElem hlive, Option.map_some] at hself
  refine ⟨size_modify h, fun i hi => frames_modify_of_ne h hi, _, _,
    Array.getElem?_eq_getElem hlive, hself, rfl, rfl, rfl, fun k => ?_⟩
  split
  case isTrue hk => exact hk ▸ lookupEntry_upsertEntry_self ..
  case isFalse hk => exact lookupEntry_upsertEntry_of_ne hk ..

/-- A look-up is a search, and complains of the name as it was written. -/
theorem lookup_eq (s : Scopes) (g : FrameId) (m : String) :
    s.lookup g m =
      match s.find (bound (lowerCase m)) g with
      | .ok (some (_, v)) => .ok v
      | .ok none => .error (.undefinedVariable m)
      | .error e => .error e := by
  unfold lookup
  show (s.find (bound (lowerCase m)) g >>= _) = _
  cases s.find (bound (lowerCase m)) g with
  | error e => rfl
  | ok found => cases found <;> rfl

/-- Binding one key leaves the searches for all others alone. -/
theorem BindsOnly.find_eq {key k : String} (h : s.BindsOnly t f key v) (hk : k ≠ key)
    (g : FrameId) : t.find (bound k) g = s.find (bound k) g := by
  rw [find, find, h.size]
  refine search_congr (fun i => ?_) _ g
  by_cases hi : i = f
  · subst hi
    obtain ⟨a, b, ha, hb, -, -, hparent, hbound⟩ := h.own
    rw [ha, hb, Option.map_some, Option.map_some, hbound k, if_neg hk, hparent]
  · rw [h.others i hi]

/-- **The law of variables.**  In the arena after any operations that are each given a frame
    which is there, binding `n` to `v` in frame `f` succeeds.  Then looking `m` up from frame `g`
    gives `v` if the names agree in lower case, `f` is `g` or an ancestor of it, and no frame
    from `g` up to `f`, `f` left out, binds the name.  Otherwise the answer is the one from
    before, a value or the complaint that nobody binds `m`.  Nothing else changes. -/
theorem after_assign_lookup (table : Table) (ops : List Operation) (hops : (new table).Admits ops)
    (f g : FrameId) (hf : ((new table).after ops).Live f) (hg : ((new table).after ops).Live g)
    (n m : String) (v : Value) :
    let s := (new table).after ops
    let found := lowerCase m = lowerCase n ∧ s.OpenTo (bound (lowerCase m)) g f
    ∃ t, s.assign f n v = .ok t ∧
      (found → t.lookup g m = .ok v) ∧
      (¬ found → t.lookup g m = s.lookup g m ∧
        ((∃ w, s.lookup g m = .ok w) ∨ s.lookup g m = .error (.undefinedVariable m))) ∧
      s.BindsOnly t f (lowerCase n) v := by
  intro s found
  have h : s.Rooted table := (rooted_new table).after hops
  obtain ⟨t, ht⟩ : ∃ t, s.assign f n v = .ok t := ⟨_, modify_eq_ok_iff.mpr ⟨hf, rfl⟩⟩
  have honly : s.BindsOnly t f (lowerCase n) v := bindsOnly_assign ht
  have hfind : lowerCase m = lowerCase n →
      (s.OpenTo (bound (lowerCase m)) g f → t.find (bound (lowerCase m)) g = .ok (some (f, v))) ∧
        (¬ s.OpenTo (bound (lowerCase m)) g f →
          t.find (bound (lowerCase m)) g = s.find (bound (lowerCase m)) g) := by
    intro hnames
    rw [hnames]
    exact h.find_modify ht (fun _ => rfl) (fun _ => rfl)
      (fun _ => lookupEntry_upsertEntry_self ..) hg
  refine ⟨t, ht, fun ⟨hnames, hopen⟩ => ?_, fun hmissed => ⟨?_, (h.arena.answers hg).lookup m⟩,
    honly⟩
  · rw [lookup_eq, (hfind hnames).1 hopen]
  · rw [lookup_eq, lookup_eq]
    -- with another name no frame answers differently
    by_cases hnames : lowerCase m = lowerCase n
    · rw [(hfind hnames).2 fun hopen => hmissed ⟨hnames, hopen⟩]
    · rw [honly.find_eq hnames]

/-- Two frames side by side below frame 1; the first of them binds `Size`. -/
def siblings : List Operation :=
  [.openFrame 0, .openFrame 1, .openFrame 1, .assign 2 "Size" (.str "near")]

/-- Binding `SIZE` in frame 1 is seen from the second of its children.  The first one has a
    binding of its own in the way, and the root is not below frame 1. -/
theorem after_assign_lookup_siblings :
    (new letterTable).Admits siblings ∧
      ∃ t, ((new letterTable).after siblings).assign 1 "SIZE" (.str "far") = .ok t ∧
        t.lookup 3 "size" = .ok (.str "far") ∧ t.lookup 2 "size" = .ok (.str "near") ∧
        t.lookup 0 "size" = .error (.undefinedVariable "size") := by
  have hops : (new letterTable).Admits siblings := by decide
  have hnames : lowerCase "size" = lowerCase "SIZE" := by decide +kernel
  have h : ((new letterTable).after siblings).WellFormed :=
    ((rooted_new letterTable).after hops).arena
  -- the frame 3 is below 1, the frame 2 has a value of its own, and the root is above
  have hsecond : ((new letterTable).after siblings).OpenTo (bound (lowerCase "size")) 3 1 :=
    (h.openTo_iff rfl).mpr (.inr ⟨rfl, 1, rfl, h.openTo_self _ 1⟩)
  have hfirst : ¬ ((new letterTable).after siblings).OpenTo (bound (lowerCase "size")) 2 1 := by
    intro hopen
    rcases (h.openTo_iff rfl).mp hopen with heq | ⟨hnone, -⟩
    · exact absurd heq (by decide)
    · exact absurd hnone (Option.some_ne_none (Value.str "near"))
  have hroot : ¬ ((new letterTable).after siblings).OpenTo (bound (lowerCase "size")) 0 1 :=
    fun hopen => absurd (h.le_of_onChain hopen.above) (by decide)
  have law := fun g hg => after_assign_lookup letterTable siblings hops 1 g (by decide) hg
    "SIZE" "size" (.str "far")
  obtain ⟨t, ht, hfound, -, -⟩ := law 3 (by decide)
  obtain ⟨t', ht', -, hhidden, -⟩ := law 2 (by decide)
  obtain ⟨t'', ht'', -, habove, -⟩ := law 0 (by decide)
  obtain rfl : t = t' := Except.ok.inj (ht.symm.trans ht')
  obtain rfl : t = t'' := Except.ok.inj (ht.symm.trans ht'')
  exact ⟨hops, t, ht, hfound ⟨hnames, hsecond⟩, (hhidden fun hopen => hfirst hopen.2).1,
    (habove fun hopen => hroot hopen.2).1⟩

end BlockChart.Scopes
