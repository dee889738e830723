import Portability.Proofs.Walk.Coverage
import Portability.Proofs.Walk.Stages

/-! The bounds of a walk are never reached, so that a recursion without any is the same walk. -/

namespace Portability.Walk

variable {n : Nat} {g : Graph n} {coverage : Coverage} {s t : Fin n} {w : Walk n} {k steps : Nat}
variable {arguments arguments' : List (Option (Fin n)) → Walk n → Collecting n (Walk n)}
variable {start : Option (Fin n)} {next next' : Option (Fin n) → Walk n → Collecting n (Walk n)}
variable {go go' : Nat → Fin n → Walk n → Collecting n (Walk n)}
variable {climb climb' : Nat → Option (Fin n) → Walk n → Collecting n (Walk n)}

def climbStep (g : Graph n) (arguments : List (Option (Fin n)) → Walk n → Collecting n (Walk n))
    (next : Option (Fin n) → Walk n → Collecting n (Walk n)) :
    Option (Fin n) → Walk n → Collecting n (Walk n)
  | none, w => .done w
  | some t, w => .poll <|
    if seen g w t || (g t).isSpecial then .done w
    else mark t w >>= fun marked => ofType g arguments (some t) marked >>= fun after =>
      if after.found.length ≠ marked.found.length then .done after else next (g t).baseType after

def visitStep (g : Graph n) (coverage : Coverage)
    (climb : Nat → Option (Fin n) → Walk n → Collecting n (Walk n))
    (go : Nat → Fin n → Walk n → Collecting n (Walk n)) (depth : Nat) (s : Fin n) (w : Walk n) :
    Collecting n (Walk n) :=
  if (g s).isTypeParameter then ofParameter g coverage go depth s w
  else hierarchyBy g coverage (climb depth) (ofEach (go depth)) s w

structure Recurs (g : Graph n) (coverage : Coverage)
    (go : Nat → Fin n → Walk n → Collecting n (Walk n))
    (climb : Nat → Option (Fin n) → Walk n → Collecting n (Walk n)) : Prop where
  go_eq : ∀ depth s w, go depth s w = visitStep g coverage climb go depth s w
  climb_eq : ∀ depth start w,
    climb depth start w = climbStep g (ofEach (go depth)) (climb depth) start w

def size (w : Walk n) : Nat := w.visited.toFinset.card

lemma size_le (w : Walk n) : w.size ≤ n :=
  (Finset.card_le_univ w.visited.toFinset).trans_eq (Fintype.card_fin n)

lemma Fresh.size_le {after : Walk n} {qs : List (Option (Fin n))} (h : Fresh g w after qs) :
    w.size ≤ after.size :=
  card_toFinset_mono h.grows

lemma not_mem_of_seen (hs : seen g w s = false) : s ∉ w.visited := by
  intro hmem
  have hequal := equal_of_seen hmem hs
  rw [g.equal_self] at hequal
  cases hequal

lemma size_mark (hs : seen g w s = false) (found : List Identifier) :
    size ⟨s :: w.visited, found⟩ = w.size + 1 :=
  card_toFinset_cons (not_mem_of_seen hs)

lemma ofBases_succ : ofBases g arguments (steps + 1) start w =
    climbStep g arguments (ofBases g arguments steps) start w := by
  cases start <;> rfl

lemma visit_succ (room depth : Nat) : visit g coverage (room + 1) depth s w =
    visitStep g coverage (fun depth => ofBases g (ofEach (visit g coverage room depth)) n)
      (visit g coverage room) depth s w := by
  rw [visit, ofHierarchy_eq, visitStep]

def AlikeFrom (k : Nat) (arguments arguments' : List (Option (Fin n)) → Walk n →
    Collecting n (Walk n)) : Prop :=
  ∀ ts w, k ≤ w.size → arguments ts w = arguments' ts w

lemma alikeFrom_ofEach {visit visit' : Fin n → Walk n → Collecting n (Walk n)}
    (hf : ∀ s w, (visit s w).Always (Fresh g w))
    (hv : ∀ s w, k ≤ w.size → visit s w = visit' s w) : AlikeFrom k (ofEach visit) (ofEach visit') := by
  intro ts w hk
  induction ts generalizing w with
  | nil => rfl
  | cons t rest ih =>
    cases t with
    | none => exact congrArg Routine.poll (ih w hk)
    | some s =>
      apply congrArg Routine.poll
      rw [← hv s w hk]
      exact (hf s w).bind_congr fun between qs h => ih between (hk.trans h.size_le)

section

variable (hf : ∀ ts w, (arguments ts w).Always (Fresh g w)) (ha : AlikeFrom k arguments arguments')
include ha

lemma ofType_congr (hk : k ≤ w.size) (s : Option (Fin n)) :
    ofType g arguments s w = ofType g arguments' s w := by
  apply congrArg (Routine.ask s)
  funext x
  apply congrArg Routine.poll
  cases s with
  | none => rfl
  | some s =>
    have harguments : arguments (g s).typeArguments ⟨w.visited, w.found ++ x.toList⟩ =
        arguments' (g s).typeArguments ⟨w.visited, w.found ++ x.toList⟩ := ha _ _ hk
    simp only [harguments]

include hf

lemma mark_ofType_congr {rest rest' : Walk n → Collecting n (Walk n)} (hs : seen g w s = false)
    (hk : k ≤ w.size + 1)
    (hr : ∀ after, w.size < after.size → rest after = rest' after) :
    ofType g arguments (some s) ⟨s :: w.visited, w.found⟩ >>= rest =
      ofType g arguments' (some s) ⟨s :: w.visited, w.found⟩ >>= rest' := by
  have hsize := size_mark hs w.found
  rw [← ofType_congr ha (by rwa [hsize])]
  apply (always_ofType hf s _).bind_congr
  rintro after - ⟨qs, -, h⟩
  have hgrows := h.size_le
  rw [hsize] at hgrows
  exact hr after hgrows

lemma climbStep_congr (hk : k ≤ w.size + 1)
    (hn : ∀ start after, w.size < after.size → next start after = next' start after)
    (start : Option (Fin n)) :
    climbStep g arguments next start w = climbStep g arguments' next' start w := by
  cases start with
  | none => rfl
  | some t =>
    apply congrArg Routine.poll
    split
    · rfl
    · next hgo =>
      have hfresh : seen g w t = false := by simp_all
      refine congrArg (Routine.note _) (mark_ofType_congr hf ha hfresh hk fun after hsize => ?_)
      split
      · rfl
      · exact hn _ after hsize

lemma ofInterfaces_congr (ts : List (Option (Fin n))) (hk : k ≤ w.size) :
    ofInterfaces g arguments ts w = ofInterfaces g arguments' ts w := by
  induction ts generalizing w with
  | nil => rfl
  | cons t rest ih =>
    cases t with
    | none => exact congrArg Routine.poll (ofType_congr ha hk none)
    | some s =>
      rw [ofInterfaces, ofInterfaces]
      split
      · exact ih hk
      · next hgo =>
        have hfresh := (Bool.not_eq_true _).mp hgo
        apply congrArg (Routine.note _)
        apply congrArg Routine.poll
        exact mark_ofType_congr hf ha hfresh (by omega) fun after hsize => ih (by omega)

lemma hierarchyBy_congr (hn : ∀ start w, (next start w).Always (Fresh g w))
    (hk : k ≤ w.size + 1)
    (hc : ∀ start after, w.size < after.size → next start after = next' start after) (s : Fin n) :
    hierarchyBy g coverage next arguments s w = hierarchyBy g coverage next' arguments' s w := by
  have hflat (below : Walk n) (hsize : w.size < below.size) :
      flat g coverage arguments s below = flat g coverage arguments' s below := by
    rw [flat, flat, ofInterfaces_congr hf ha _ (by omega)]
  rw [hierarchyBy, hierarchyBy]
  split
  · rfl
  · next hgo =>
    have hfresh := (Bool.not_eq_true _).mp hgo
    apply congrArg (Routine.note _)
    apply congrArg Routine.poll
    split
    · rfl
    · refine mark_ofType_congr hf ha hfresh hk fun own hsize => ?_
      rw [climbFrom, climbFrom]
      split
      · rw [← hc _ own hsize]
        exact (hn _ own).bind_congr fun below qs h => hflat below (hsize.trans_le h.size_le)
      · exact hflat own hsize

end

lemma visitStep_congr (hf : ∀ depth s w, (go depth s w).Always (Fresh g w))
    (hn : ∀ depth start w, (climb depth start w).Always (Fresh g w))
    (hg : ∀ depth s after, w.size < after.size → go depth s after = go' depth s after)
    (hc : ∀ depth start after, w.size < after.size →
      climb depth start after = climb' depth start after) (depth : Nat) (s : Fin n) :
    visitStep g coverage climb go depth s w = visitStep g coverage climb' go' depth s w := by
  have halike (depth : Nat) : AlikeFrom (w.size + 1) (ofEach (go depth)) (ofEach (go' depth)) :=
    alikeFrom_ofEach (hf depth) (hg depth)
  rw [visitStep, visitStep]
  split
  · rw [ofParameter, ofParameter]
    split
    · rfl
    · split
      · rfl
      · next hgo =>
        have hsize := size_mark ((Bool.not_eq_true _).mp hgo) w.found
        exact congrArg (Routine.note _) (halike _ _ _ hsize.ge)
  · exact hierarchyBy_congr (always_ofEach (hf depth)) (halike depth) (hn depth) le_rfl (hc depth) s

section

variable (hf : ∀ ts w, (arguments ts w).Always (Fresh g w))
include hf

lemma ofBases_congr (ha : AlikeFrom k arguments arguments') (hk : k ≤ w.size)
    (start : Option (Fin n)) :
    ofBases g arguments steps start w = ofBases g arguments' steps start w := by
  induction steps generalizing start w with
  | zero => cases start <;> rfl
  | succ steps ih =>
    rw [ofBases_succ, ofBases_succ]
    exact climbStep_congr hf ha (by omega) (fun start after hsize => ih (by omega) start) start

lemma climb_eq_ofBases (ha : AlikeFrom k arguments arguments')
    (hc : ∀ start w, next start w = climbStep g arguments' next start w) (hk : k ≤ w.size)
    (hn : n + 1 ≤ steps + w.size) (start : Option (Fin n)) :
    next start w = ofBases g arguments steps start w := by
  induction steps generalizing start w with
  | zero =>
    have hle := w.size_le
    omega
  | succ steps ih =>
    rw [hc, ofBases_succ]
    refine (climbStep_congr hf ha (by omega) (fun start after hsize => ?_) start).symm
    exact (ih (by omega) (by omega) start).symm

lemma ofBases_stable (hn : n + 1 ≤ steps + w.size) (start : Option (Fin n)) :
    ofBases g arguments (steps + 1) start w = ofBases g arguments steps start w := by
  induction steps generalizing start w with
  | zero =>
    have hle := w.size_le
    omega
  | succ steps ih =>
    conv_rhs => rw [ofBases_succ]
    rw [ofBases_succ]
    have halike : AlikeFrom 0 arguments arguments := fun _ _ _ => rfl
    exact climbStep_congr hf halike (by omega) (fun start after hsize => ih (by omega) start) start

end

lemma visit_stable {room depth : Nat} (hn : n + 1 ≤ room + w.size) :
    visit g coverage room depth s w = visit g coverage (room + 1) depth s w := by
  -- nested visits have room for one less, and start where one more symbol is marked
  induction room generalizing depth s w with
  | zero =>
    have hle := w.size_le
    omega
  | succ room ih =>
    have hf := always_arguments g coverage room
    have halike (depth : Nat) : AlikeFrom (w.size + 1) (ofEach (visit g coverage room depth))
        (ofEach (visit g coverage (room + 1) depth)) :=
      alikeFrom_ofEach (always_visit room depth) fun s after hk => ih (by omega)
    rw [visit_succ, visit_succ]
    refine visitStep_congr (always_visit room) (fun depth => always_ofBases (hf depth) n) ?_ ?_ _ s
    · exact fun depth s after hsize => ih (by omega)
    · exact fun depth start after hsize => ofBases_congr (hf depth) (halike depth) hsize start

lemma recurs_visit (g : Graph n) (coverage : Coverage) :
    Recurs g coverage (visit g coverage (n + 1)) fun depth =>
      ofBases g (ofEach (visit g coverage (n + 1) depth)) (n + 1) where
  go_eq depth s w := by
    have hf := always_arguments g coverage
    have halike (depth : Nat) : AlikeFrom 1 (ofEach (visit g coverage n depth))
        (ofEach (visit g coverage (n + 1) depth)) :=
      alikeFrom_ofEach (always_visit n depth) fun s after hk => visit_stable (by omega)
    rw [visit_succ]
    refine visitStep_congr (always_visit n) (fun depth => always_ofBases (hf n depth) n) ?_ ?_ _ s
    · exact fun depth s after hsize => visit_stable (by omega)
    · intro depth start after hsize
      rw [ofBases_congr (hf n depth) (halike depth) (by omega)]
      exact (ofBases_stable (hf (n + 1) depth) (by omega) start).symm
  climb_eq depth start w := by
    have hf := always_arguments g coverage (n + 1) depth
    have halike : AlikeFrom 0 (ofEach (visit g coverage (n + 1) depth))
        (ofEach (visit g coverage (n + 1) depth)) := fun _ _ _ => rfl
    rw [ofBases_succ]
    refine climbStep_congr hf halike (by omega) (fun start after hsize => ?_) start
    exact (ofBases_stable hf (by omega) start).symm

section Recurs

variable (h : Recurs g coverage go climb)
include h

lemma Recurs.visit_eq {room depth : Nat} (hn : n + 1 ≤ room + w.size) :
    visit g coverage room depth s w = go depth s w := by
  induction room generalizing depth s w with
  | zero =>
    have hle := w.size_le
    omega
  | succ room ih =>
    have hf := always_arguments g coverage room
    have halike (depth : Nat) : AlikeFrom (w.size + 1) (ofEach (visit g coverage room depth))
        (ofEach (go depth)) :=
      alikeFrom_ofEach (always_visit room depth) fun s after hk => ih (by omega)
    rw [visit_succ, h.go_eq]
    refine visitStep_congr (always_visit room) (fun depth => always_ofBases (hf depth) n) ?_ ?_ _ s
    · exact fun depth s after hsize => ih (by omega)
    · intro depth start after hsize
      exact (climb_eq_ofBases (hf depth) (halike depth) (h.climb_eq depth) hsize (by omega)
        start).symm

lemma Recurs.alikeFrom_one (depth : Nat) :
    AlikeFrom 1 (ofEach (visit g coverage n depth)) (ofEach (go depth)) :=
  alikeFrom_ofEach (always_visit n depth) fun s w hk => h.visit_eq (by omega)

lemma Recurs.collectType_eq (s : Fin n) : collectType g coverage (some s) =
    hierarchyBy g coverage (climb 0) (ofEach (go 0)) s {} >>= fun w => .done w.found := by
  have hf := always_arguments g coverage n 0
  have hclimb (start : Option (Fin n)) (after : Walk n) (hsize : size ({} : Walk n) < after.size) :
      ofBases g (ofEach (visit g coverage n 0)) n start after = climb 0 start after :=
    (climb_eq_ofBases hf (h.alikeFrom_one 0) (h.climb_eq 0) (by omega) (by omega) start).symm
  rw [collectType, ofHierarchy_eq, hierarchyBy_congr hf (h.alikeFrom_one 0) (always_ofBases hf n)
    (by omega) hclimb s]
  rfl

lemma Recurs.collectParameter_eq (s : Fin n) : collectParameter g coverage (some s) =
    ofParameter g coverage go 0 s {} >>= fun w => .done w.found := by
  rw [collectParameter, ofParameter, ofParameter]
  split
  · rfl
  · have heach : ofEach (visit g coverage n 1) (g s).constraints ⟨[s], []⟩ =
        ofEach (go 1) (g s).constraints ⟨[s], []⟩ := h.alikeFrom_one 1 _ _ (by simp [size])
    exact congrArg (Routine.note _) (congrArg (Routine.bind · _) heach)

end Recurs

end Portability.Walk
