/-
  Brackets without labels: an opening, any number of inner marks, a closing, and so on. They are
  the labelled ones with a single label; `phase` reads them and knows whether a bracket is open.
-/
import ClapValidatorPlugins.Lib.Brackets

namespace Alternation

abbrev Mark := Brackets.Mark Unit

@[match_pattern] abbrev Mark.opening : Mark := Brackets.Mark.opening ()
@[match_pattern] abbrev Mark.inner : Mark := Brackets.Mark.inner ()
@[match_pattern] abbrev Mark.closing : Mark := Brackets.Mark.closing ()

/-- Complete brackets, one behind the other. -/
abbrev Alternating : List Mark → Prop := Brackets.Complete

/-- The bracket that is open, if there is one. -/
def current (b : Bool) : Option Unit := if b then some () else none

theorem current_isSome (o : Option Unit) : current o.isSome = o := by
  cases o <;> rfl

/-- Whether a bracket is open behind one more mark; `none` where the mark does not fit. -/
def advance (b : Bool) (m : Mark) : Option Bool :=
  (Brackets.advance (current b) m).map Option.isSome

def phase (b : Bool) (ms : List Mark) : Option Bool :=
  (Brackets.reads (current b) ms).map Option.isSome

theorem phase_nil (b : Bool) : phase b [] = some b := by
  cases b <;> rfl

theorem phase_append (xs ys : List Mark) (b : Bool) :
    phase b (xs ++ ys) = (phase b xs).bind fun c => phase c ys := by
  rw [phase, phase, Brackets.reads_append]
  cases Brackets.reads (current b) xs with
  | none => rfl
  | some later =>
    show (Brackets.reads later ys).map _ = (Brackets.reads (current later.isSome) ys).map _
    rw [current_isSome]

theorem phase_singleton (b : Bool) (m : Mark) : phase b [m] = advance b m := by
  rw [phase, advance, Brackets.reads_singleton]

/-- What is read to its end was read in front too. -/
theorem phase_of_append {b c : Bool} {xs ys : List Mark} (h : phase b (xs ++ ys) = some c) :
    ∃ d, phase b xs = some d ∧ phase d ys = some c :=
  Option.bind_eq_some_iff.mp ((phase_append xs ys b).symm.trans h)

/-- A stretch with as many openings as closings ends as it began. -/
theorem phase_count {b c : Bool} {xs : List Mark} (h : phase b xs = some c) :
    b.toNat + xs.count .opening = c.toNat + xs.count .closing := by
  induction xs generalizing b with
  | nil =>
    cases b <;> cases h <;> rfl
  | cons x xs ih =>
    have hsplit : phase b ([x] ++ xs) = some c := h
    obtain ⟨d, hx, hxs⟩ := phase_of_append hsplit
    have hcount := ih hxs
    rw [phase_singleton] at hx
    rw [List.count_cons, List.count_cons]
    cases b <;> cases x <;> cases hx <;> simp [Mark.opening, Mark.closing] at hcount ⊢ <;> omega

theorem phase_balanced {b c : Bool} {xs : List Mark} (h : phase b xs = some c)
    (hcount : xs.count .opening = xs.count .closing) : b = c := by
  have hphase := phase_count h
  cases b <;> cases c <;> simp_all

/-- Cutting a balanced piece leaves the phase behind it. -/
theorem phase_cut {b e : Bool} {xs ys zs : List Mark} (h : phase b (xs ++ (ys ++ zs)) = some e)
    (hcount : ys.count .opening = ys.count .closing) : phase b (xs ++ zs) = some e := by
  obtain ⟨d, hxs, hrest⟩ := phase_of_append h
  obtain ⟨d', hys, hzs⟩ := phase_of_append hrest
  obtain rfl := phase_balanced hys hcount
  rw [phase_append, hxs]
  exact hzs

/-- The fronts of alternating sequences are what `phase` reads to its end. -/
theorem isFront_iff {xs : List Mark} :
    (∃ ys, Alternating (xs ++ ys)) ↔ ∃ c, phase false xs = some c := by
  rw [← Brackets.IsFront, Brackets.isFront_iff]
  constructor
  · rintro ⟨later, h⟩
    exact ⟨later.isSome, congrArg (Option.map Option.isSome) h⟩
  · rintro ⟨c, h⟩
    obtain ⟨later, hlater, -⟩ := Option.map_eq_some_iff.mp h
    exact ⟨later, hlater⟩

end Alternation
