import BlockChart.Proofs.Likeness
import BlockChart.Proofs.ContextStack
import Mathlib.Logic.Function.Basic

namespace BlockChart

/-!
# Names in any case

A program may spell its variables as it likes, as long as the names stay the same in
lower case.

* `Program.folded` is a program with all names of variables in lower case;
* `Program.respelled_alike` — a program is alike to the one in which every name has been
  replaced by one spelling that is common to all names of its lower-case form;
* `Program.run_eq_of_folded_eq` — so two programs with the same folded form do the same,
  and a variable that is missing is reported as each of them spells it.

Nothing is used of the lower-case form but that it is a function.
-/

/-- No difference, but for the spelling of the variables that the first run looks up. -/
def Likeness.respelling (loads : String → Prop) : Likeness :=
  { Likeness.same with
    spelling := fun name name' => loads name ∧ lowerCase name = lowerCase name' }

/-- Sessions that differ in the spelling of names only do not differ at all. -/
theorem Likeness.eq_of_sessions_respelling {loads : String → Prop} {s t : Session}
    (h : (Likeness.respelling loads).Sessions s t) : t = s := by
  obtain ⟨d, w, hd, hw, rfl⟩ := h
  cases hd
  cases hw
  rfl

/-- **Faults of two programs that spell their variables in their own ways**: the same, or
    each complains of a variable that it looks up under a name of its own. -/
inductive Fault.SameButSpelling (p q : Program) : Fault → Fault → Prop
  | undefined {name name' : String} (left : p.Loads name) (right : q.Loads name')
      (folded : lowerCase name = lowerCase name') :
      SameButSpelling p q (.undefinedVariable name) (.undefinedVariable name')
  | same {e : Fault} (nameless : ∀ name, e ≠ .undefinedVariable name) : SameButSpelling p q e e

section

variable {p q : Program}

/-- Two faults that are like a third one up to spelling are the same up to spelling. -/
theorem Fault.sameButSpelling_of_faults {e e' common : Fault}
    (hp : (Likeness.respelling p.Loads).Faults e common)
    (hq : (Likeness.respelling q.Loads).Faults e' common) : Fault.SameButSpelling p q e e' := by
  cases hp with
  | undefined left =>
    cases hq with
    | undefined right => exact .undefined left.1 right.1 (left.2.trans right.2.symm)
    | same nameless => exact absurd rfl (nameless _)
  | same nameless =>
    cases hq with
    | undefined right => exact absurd rfl (nameless _)
    | same _ => exact .same nameless

/-- Two runs whose outcomes are like those of a third one. -/
theorem Likeness.sameButSpelling_of_outcomes {α : Type}
    {out out' common : Except Fault α × Session}
    (hp : (Likeness.respelling p.Loads).Outcomes out common)
    (hq : (Likeness.respelling q.Loads).Outcomes out' common) :
    ((∃ v, out.1 = .ok v ∧ out'.1 = .ok v) ∨
      ∃ e e', out.1 = .error e ∧ out'.1 = .error e' ∧ Fault.SameButSpelling p q e e') ∧
    out'.2 = out.2 := by
  -- both runs are compared with a common one, so they end alike and in one session
  cases hp with
  | ok left =>
    cases eq_of_sessions_respelling left
    cases hq with
    | ok right => exact ⟨.inl ⟨_, rfl, rfl⟩, (eq_of_sessions_respelling right).symm⟩
    | excused excuse => exact excuse.elim
  | error faults left =>
    cases eq_of_sessions_respelling left
    cases hq with
    | error faults' right =>
      refine ⟨.inr ⟨_, _, rfl, rfl, ?_⟩, (eq_of_sessions_respelling right).symm⟩
      exact Fault.sameButSpelling_of_faults faults faults'
    | excused excuse => exact excuse.elim
  | excused excuse => exact excuse.elim

end

namespace Program

/-- The program with the names of its variables in lower case. -/
def folded (p : Program) : Program :=
  p.relabel { name := lowerCase }

/-- One spelling for all names of a lower-case form. -/
noncomputable def commonSpelling (folded : String) : String :=
  Function.invFun lowerCase folded

/-- The common spelling is a spelling of the same name. -/
theorem lowerCase_commonSpelling (name : String) :
    lowerCase (commonSpelling (lowerCase name)) = lowerCase name :=
  Function.invFun_eq ⟨name, rfl⟩

/-- The program in the common spelling of its names. -/
noncomputable def respelled (p : Program) : Program :=
  p.relabel { name := commonSpelling ∘ lowerCase }

/-- The common spelling depends on the lower-case form only. -/
theorem respelled_eq (p : Program) : p.respelled = p.folded.relabel { name := commonSpelling } := by
  rw [folded, relabel_relabel]
  rfl

/-- **A program is alike to itself in the common spelling.** -/
theorem respelled_alike (limit : Nat) (p : Program) :
    Action.Alike (.respelling p.Loads) (p.run limit) (p.respelled.run limit) := by
  let r : Relabeling := { name := commonSpelling ∘ lowerCase }
  have hname (name : String) : lowerCase name = lowerCase (r.name name) :=
    (lowerCase_commonSpelling name).symm
  have hloads (name : String) (h : p.Loads name) :
      (Likeness.respelling p.Loads).spelling name (r.name name) := ⟨h, hname name⟩
  have hmeasured : (Likeness.respelling p.Loads).Measured := Likeness.measured_same
  exact relabel_alike hmeasured (Likeness.limits_self _ limit) (Discipline.recolors_name _ _) hname
    hloads

/-- **Names of variables count in any case.**  Let two programs differ only in how they spell
    the names of their variables.  From every session, both give the same value, or both
    fail with the same fault, in which a variable has the spelling of the program that
    looked it up; and they leave the same session behind, so the same scopes and the same
    drawing. -/
theorem run_eq_of_folded_eq {p q : Program} (h : p.folded = q.folded) (limit : Nat)
    (s : Session) :
    let out := (p.run limit).run s
    let out' := (q.run limit).run s
    ((∃ v, out.1 = .ok v ∧ out'.1 = .ok v) ∨
      ∃ e e', out.1 = .error e ∧ out'.1 = .error e' ∧ Fault.SameButSpelling p q e e') ∧
    out'.2 = out.2 := by
  intro out out'
  -- In the common spelling the two are the same program.
  have hcommon : q.respelled = p.respelled := by rw [respelled_eq, respelled_eq, h]
  have hp : (Likeness.respelling p.Loads).Outcomes out ((p.respelled.run limit).run s) :=
    respelled_alike limit p s s ⟨s.drawing, s.strays, rfl, rfl, rfl⟩
  have hq : (Likeness.respelling q.Loads).Outcomes out' ((p.respelled.run limit).run s) :=
    hcommon ▸ respelled_alike limit q s s ⟨s.drawing, s.strays, rfl, rfl, rfl⟩
  exact Likeness.sameButSpelling_of_outcomes hp hq

/-- Draws the name of every column, and then looks up a variable that nobody has bound. -/
def titles (each shown missing : String) : Program :=
  .forEach false (.columns false) each
    (.text false (.columnName false (.load false shown)) .nothing .nothing)
    (.store false "rest" (.load false missing) .nothing)

/-- A session with one column. -/
def oneColumn : Session :=
  .start ⟨["n"], []⟩ ⟨#[.plain "svg" none]⟩

/-- Two spellings of `titles` draw the same title, and then each misses its own variable. -/
theorem run_eq_of_folded_eq_titles :
    let p := titles "Col" "col" "Total"
    let q := titles "COL" "cOl" "TOTAL"
    p.folded = q.folded ∧ p ≠ q ∧
      (∃ e e', ((p.run 8).run oneColumn).1 = .error e ∧ ((q.run 8).run oneColumn).1 = .error e' ∧
        Fault.SameButSpelling p q e e') ∧
      ((q.run 8).run oneColumn).2 = ((p.run 8).run oneColumn).2 ∧
      ((p.run 8).run oneColumn).2.drawing.size = 3 := by
  intro p q
  have hfolded : p.folded = q.folded := by decide +kernel
  have hfails : ((p.run 8).run oneColumn).1.toBool = false := by decide +kernel
  obtain ⟨hok | hfault, hsession⟩ := run_eq_of_folded_eq hfolded 8 oneColumn
  · obtain ⟨v, hv, -⟩ := hok
    rw [hv] at hfails
    cases hfails
  · exact ⟨hfolded, by decide, hfault, hsession, by decide +kernel⟩

end Program

end BlockChart
