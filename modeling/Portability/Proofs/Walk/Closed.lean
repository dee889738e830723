import Mathlib.Tactic.Common
import Portability.Walk

namespace Portability.Walk

variable {n : Nat} {g : Graph n} {property : Walk n → Collecting n (Walk n) → Prop}

structure Closed (g : Graph n) (property : Walk n → Collecting n (Walk n) → Prop) : Prop where
  done : ∀ w, property w (.done w)
  report : ∀ w r, property w (.note (.record r) (.done w))
  mark : ∀ w s, property w (mark s w)
  poll : ∀ {w step}, property w step → property w (.poll step)
  bind : ∀ {w step} {next : Walk n → Collecting n (Walk n)}, property w step →
    (∀ between, property between (next between)) → property w (step >>= next)
  ask : ∀ {w s} {next : Option Identifier → Collecting n (Walk n)},
    (∀ x, property ⟨w.visited, w.found ++ x.toList⟩ (next x)) →
      property w (.ask (some s) fun x => .poll (next x))
  absent : ∀ {s}, none ∈ (g s).interfaces → ∀ w,
    property w (.ask none fun _ => .poll (.throw .absentSymbol))

namespace Closed

variable (h : Closed g property)
include h

lemma checkpoint {w : Walk n} {step : Collecting n (Walk n)} (hs : property w step) :
    property w (Routine.checkpoint >>= fun _ => step) := h.poll hs

lemma ofEach {visit : Fin n → Walk n → Collecting n (Walk n)} (hv : ∀ s w, property w (visit s w))
    (ts : List (Option (Fin n))) (w : Walk n) : property w (ofEach visit ts w) := by
  induction ts generalizing w with
  | nil => exact h.done w
  | cons t rest ih =>
    cases t with
    | none => exact h.poll (ih w)
    | some s => exact h.poll (h.bind (hv s w) ih)

section

variable {arguments : List (Option (Fin n)) → Walk n → Collecting n (Walk n)}
variable (ha : ∀ ts w, property w (arguments ts w))
include ha

lemma ofType (s : Fin n) (w : Walk n) : property w (ofType g arguments (some s) w) := by
  refine h.ask fun x => ?_
  dsimp only
  split
  · exact ha _ _
  · exact h.done _

lemma ofBases (steps : Nat) (start : Option (Fin n)) (w : Walk n) :
    property w (ofBases g arguments steps start w) := by
  induction steps generalizing start w with
  | zero => cases start <;> exact h.done w
  | succ steps ih =>
    cases start with
    | none => exact h.done w
    | some t =>
      rw [Walk.ofBases]
      apply h.poll
      split
      · exact h.done w
      · refine h.bind (h.mark w t) fun marked => h.bind (h.ofType ha t marked) fun after => ?_
        split
        · exact h.done after
        · exact ih _ _

lemma ofInterfaces {ts : List (Option (Fin n))} (hts : none ∈ ts → ∃ s, none ∈ (g s).interfaces)
    (w : Walk n) : property w (ofInterfaces g arguments ts w) := by
  induction ts generalizing w with
  | nil => exact h.done w
  | cons t rest ih =>
    have hrest := ih fun hnone => hts (List.mem_cons_of_mem _ hnone)
    cases t with
    | none =>
      obtain ⟨s, hs⟩ := hts List.mem_cons_self
      exact h.poll (h.absent hs w)
    | some s =>
      rw [Walk.ofInterfaces]
      split
      · exact hrest w
      · refine h.bind (h.mark w s) fun marked => h.checkpoint ?_
        exact h.bind (h.ofType ha s marked) hrest

lemma ofHierarchy (coverage : Coverage) (s : Fin n) (w : Walk n) :
    property w (ofHierarchy g coverage arguments s w) := by
  rw [Walk.ofHierarchy]
  split
  · exact h.done w
  · refine h.bind (h.mark w s) fun marked => h.checkpoint ?_
    split
    · exact h.done marked
    · have hend (below : Walk n) : property below (do
          Routine.checkpoint
          if coverage.interfaces then Walk.ofInterfaces g arguments (g s).interfaces below
          else return below) := by
        apply h.checkpoint
        split
        · exact h.ofInterfaces ha (fun hnone => ⟨s, hnone⟩) below
        · exact h.done below
      refine h.bind (h.ofType ha s marked) fun own => ?_
      dsimp only
      split
      · exact h.bind (h.ofBases ha _ _ _) hend
      · exact hend own

end

lemma ofParameter (coverage : Coverage) {visit : Nat → Fin n → Walk n → Collecting n (Walk n)}
    (hv : ∀ depth s w, property w (visit depth s w)) (depth : Nat) (s : Fin n) (w : Walk n) :
    property w (ofParameter g coverage visit depth s w) := by
  rw [Walk.ofParameter]
  split
  · exact h.report w _
  · split
    · exact h.done w
    · exact h.bind (h.mark w s) fun marked => h.ofEach (hv _) _ marked

lemma visit (coverage : Coverage) (room depth : Nat) (s : Fin n) (w : Walk n) :
    property w (visit g coverage room depth s w) := by
  induction room generalizing depth s w with
  | zero => exact h.done w
  | succ room ih =>
    rw [Walk.visit]
    split
    · exact h.ofParameter coverage ih depth s w
    · exact h.ofHierarchy (h.ofEach (ih depth)) coverage s w

end Closed

end Portability.Walk
