import Mathlib.Data.List.Nodup
import Mathlib.Logic.Function.Basic
import Portability.Proofs.Routine

/-! What a routine asks, whoever answers. -/

namespace Portability.Routine

variable {σ Query Answer Note α β : Type}

def calls (h : Handler σ Query Answer Note) :
    Routine Query Answer Note α → σ → List (Query × Except Failure Answer)
  | done _, _ | fail _, _ => []
  | poll next, s =>
    match h.poll.run s with
    | (.ok _, t) => next.calls h t
    | (.error _, _) => []
  | note n next, s =>
    match (h.note n).run s with
    | (.ok _, t) => next.calls h t
    | (.error _, _) => []
  | ask q next, s =>
    match (h.ask q).run s with
    | (.ok a, t) => (q, .ok a) :: (next a).calls h t
    | (.error e, _) => [(q, .error e)]

def Always : Routine Query Answer Note α → (α → List Query → Prop) → Prop
  | done a, post => post a []
  | fail _, _ => True
  | poll next, post => next.Always post
  | note _ next, post => next.Always post
  | ask q next, post => ∀ a, (next a).Always fun b qs => post b (q :: qs)

def AsksOnly (p : Query → Prop) : Routine Query Answer Note α → Prop
  | done _ | fail _ => True
  | poll next => next.AsksOnly p
  | note _ next => next.AsksOnly p
  | ask q next => p q ∧ ∀ a, (next a).AsksOnly p

variable {r : Routine Query Answer Note α} {f f' : α → Routine Query Answer Note β}
variable {pre post : α → List Query → Prop} {next : β → List Query → Prop} {p : Query → Prop}

lemma Always.mono (h : r.Always pre) (hp : ∀ a qs, pre a qs → post a qs) : r.Always post := by
  induction r generalizing pre post with
  | done a => exact hp a [] h
  | fail e => trivial
  | poll next ih => exact ih h hp
  | note n next ih => exact ih h hp
  | ask q next ih => exact fun a => ih a (h a) fun b qs => hp b (q :: qs)

lemma Always.bind (h : r.Always pre)
    (hf : ∀ a qs, pre a qs → (f a).Always fun b qs' => next b (qs ++ qs')) :
    (r >>= f).Always next := by
  change (r.bind f).Always next
  induction r generalizing pre next with
  | done a => exact hf a [] h
  | fail e => trivial
  | poll next ih => exact ih h hf
  | note n next ih => exact ih h hf
  | ask q next ih => exact fun a => ih a (h a) fun b qs => hf b (q :: qs)

lemma Always.ends (h : r.Always post) (answer : Query → Answer) : r.Ends answer post := by
  induction r generalizing post with
  | done a => exact Ends.done h
  | fail e =>
    intro a ha
    cases ha
  | poll next ih => exact ih h
  | note n next ih => exact ih h
  | ask q next ih =>
    intro b hb
    exact ih (answer q) (h (answer q)) b hb

lemma Always.bind_congr (h : r.Always pre) (hf : ∀ a qs, pre a qs → f a = f' a) :
    r >>= f = r >>= f' := by
  change r.bind f = r.bind f'
  induction r generalizing pre with
  | done a => exact hf a [] h
  | fail e => rfl
  | poll next ih => exact congrArg poll (ih h hf)
  | note n next ih => exact congrArg (note n) (ih h hf)
  | ask q next ih =>
    apply congrArg (ask q)
    funext a
    exact ih a (h a) fun b qs => hf b (q :: qs)

lemma AsksOnly.bind (h : r.AsksOnly p) (hf : ∀ a, (f a).AsksOnly p) : (r >>= f).AsksOnly p := by
  change (r.bind f).AsksOnly p
  induction r with
  | done a => exact hf a
  | fail e => trivial
  | poll next ih => exact ih h
  | note n next ih => exact ih h
  | ask q next ih => exact ⟨h.1, fun a => ih a (h.2 a)⟩

section Calls

variable {h : Handler σ Query Answer Note} {s : σ} {answer : Query → Answer}
variable {c : Query × Except Failure Answer}

lemma calls_poll_subset {r : Routine Query Answer Note α} (hc : c ∈ (poll r).calls h s) :
    ∃ t, c ∈ r.calls h t := by
  rw [calls] at hc
  split at hc
  · exact ⟨_, hc⟩
  · cases hc

lemma calls_note_subset {n : Note} {r : Routine Query Answer Note α}
    (hc : c ∈ (note n r).calls h s) : ∃ t, c ∈ r.calls h t := by
  rw [calls] at hc
  split at hc
  · exact ⟨_, hc⟩
  · cases hc

lemma AsksOnly.of_mem_calls (hr : r.AsksOnly p) (hc : c ∈ r.calls h s) : p c.1 := by
  induction r generalizing s with
  | done a => cases hc
  | fail e => cases hc
  | poll next ih =>
    obtain ⟨t, ht⟩ := calls_poll_subset hc
    exact ih hr ht
  | note n next ih =>
    obtain ⟨t, ht⟩ := calls_note_subset hc
    exact ih hr ht
  | ask q next ih =>
    rw [calls] at hc
    split at hc
    · rcases List.mem_cons.mp hc with rfl | hc
      · exact hr.1
      · exact ih _ (hr.2 _) hc
    · rw [List.mem_singleton.mp hc]
      exact hr.1

lemma run_of_call_failed {q : Query} {e : Failure} (hc : (q, .error e) ∈ r.calls h s) :
    ((r.run h).run s).1 = .error e := by
  induction r generalizing s with
  | done a => cases hc
  | fail e => cases hc
  | poll next ih =>
    obtain ⟨x, t, hx⟩ : ∃ x t, h.poll.run s = (x, t) := ⟨_, _, rfl⟩
    rw [calls, hx] at hc
    rw [run, Run.run_bind, hx]
    cases x with
    | error e => cases hc
    | ok u => exact ih hc
  | note n next ih =>
    obtain ⟨x, t, hx⟩ : ∃ x t, (h.note n).run s = (x, t) := ⟨_, _, rfl⟩
    rw [calls, hx] at hc
    rw [run, Run.run_bind, hx]
    cases x with
    | error e => cases hc
    | ok u => exact ih hc
  | ask p next ih =>
    obtain ⟨x, t, hx⟩ : ∃ x t, (h.ask p).run s = (x, t) := ⟨_, _, rfl⟩
    rw [calls, hx] at hc
    rw [run, Run.run_bind, hx]
    cases x with
    | error f =>
      obtain ⟨-, hef⟩ := Prod.mk.inj (List.mem_singleton.mp hc)
      cases hef
      rfl
    | ok a =>
      rcases List.mem_cons.mp hc with hfirst | hrest
      · cases hfirst
      · exact ih a hrest

section Answered

variable {inv : σ → Prop} (hp : Run.Yields inv h.poll (.ok ()))
variable (hn : ∀ n, Run.Yields inv (h.note n) (.ok ()))
variable (ha : ∀ q s, inv s → inv ((h.ask q).run s).2)
include hp hn ha

lemma calls_of_answered (hs : inv s) (hall : ∀ c ∈ r.calls h s, c.2 = .ok (answer c.1)) :
    r.calls h s = (r.asked answer).map (fun q => (q, .ok (answer q))) ∧
      ((r.run h).run s).1 = r.value answer := by
  induction r generalizing s with
  | done a => exact ⟨rfl, rfl⟩
  | fail e => exact ⟨rfl, rfl⟩
  | poll next ih =>
    obtain ⟨t, ht, hinv⟩ := hp s hs
    rw [calls, ht] at hall ⊢
    rw [run, Run.run_bind, ht]
    exact ih hinv hall
  | note n next ih =>
    obtain ⟨t, ht, hinv⟩ := hn n s hs
    rw [calls, ht] at hall ⊢
    rw [run, Run.run_bind, ht]
    exact ih hinv hall
  | ask q next ih =>
    have hinv := ha q s hs
    obtain ⟨x, t, hx⟩ : ∃ x t, (h.ask q).run s = (x, t) := ⟨_, _, rfl⟩
    rw [hx] at hinv
    rw [calls, hx] at hall ⊢
    rw [run, Run.run_bind, hx]
    cases x with
    | error e =>
      have hfailed := hall (q, .error e) List.mem_cons_self
      cases hfailed
    | ok a =>
      obtain ⟨hfirst, hrest⟩ := List.forall_mem_cons.mp hall
      obtain rfl : a = answer q := Except.ok.inj hfirst
      obtain ⟨hcalls, hrun⟩ := ih (answer q) hinv hrest
      exact ⟨congrArg ((q, .ok (answer q)) :: ·) hcalls, hrun⟩

omit ha in
lemma exists_answer_of_mem_calls
    (hanswers : ∀ q s, inv s → ∃ a t, (h.ask q).run s = (.ok a, t) ∧ inv t) (hs : inv s)
    (hc : c ∈ r.calls h s) : ∃ a, c.2 = .ok a := by
  induction r generalizing s with
  | done a => cases hc
  | fail e => cases hc
  | poll next ih =>
    obtain ⟨t, ht, hinv⟩ := hp s hs
    rw [calls, ht] at hc
    exact ih hinv hc
  | note n next ih =>
    obtain ⟨t, ht, hinv⟩ := hn n s hs
    rw [calls, ht] at hc
    exact ih hinv hc
  | ask q next ih =>
    obtain ⟨a, t, ht, hinv⟩ := hanswers q s hs
    rw [calls, ht] at hc
    rcases List.mem_cons.mp hc with rfl | hc
    · exact ⟨a, rfl⟩
    · exact ih a hinv hc

end Answered

lemma asked_update [DecidableEq Query] {answer : Query → Answer} {q : Query} {a : Answer}
    (hq : q ∉ r.asked (Function.update answer q a)) :
    r.asked answer = r.asked (Function.update answer q a) := by
  refine (value_congr fun p hp => ?_).2
  rw [Function.update_of_ne (ne_of_mem_of_not_mem hp hq)]

lemma exists_answer [DecidableEq Query] [Inhabited Answer]
    (hr : ∀ answer, (r.asked answer).Nodup) (h : Handler σ Query Answer Note) (s : σ) :
    ∃ answer, (r.calls h s).map Prod.fst <+: r.asked answer ∧
      ∀ q a, (q, .ok a) ∈ r.calls h s → answer q = a := by
  induction r generalizing s with
  | done a => exact ⟨fun _ => default, List.nil_prefix, by simp [calls]⟩
  | fail e => exact ⟨fun _ => default, List.nil_prefix, by simp [calls]⟩
  | poll next ih =>
    rw [calls]
    split
    · exact ih hr _
    · exact ⟨fun _ => default, List.nil_prefix, by simp⟩
  | note n next ih =>
    rw [calls]
    split
    · exact ih hr _
    · exact ⟨fun _ => default, List.nil_prefix, by simp⟩
  | ask q next ih =>
    rw [calls]
    split
    · next a t _ =>
      -- `q` is not asked again, so its answer can be set to `a` afterwards
      have hfresh (answer : Query → Answer) :
          q ∉ (next a).asked (Function.update answer q a) ∧ ((next a).asked answer).Nodup := by
        have hnodup := hr (Function.update answer q a)
        rw [asked, Function.update_self, List.nodup_cons] at hnodup
        rw [asked_update hnodup.1]
        exact hnodup
      obtain ⟨answer, hprefix, hanswer⟩ := ih a (fun answer => (hfresh answer).2) t
      have hq := (hfresh answer).1
      refine ⟨Function.update answer q a, ?_, ?_⟩
      · rw [asked, Function.update_self, ← asked_update hq, List.map_cons]
        exact List.prefix_cons_inj q |>.mpr hprefix
      · intro p b hpb
        rcases List.mem_cons.mp hpb with heq | hpb
        · obtain ⟨rfl, hb⟩ := Prod.mk.inj heq
          rw [Function.update_self, Except.ok.inj hb]
        · have hmem : p ∈ (next a).asked answer :=
            hprefix.subset (List.mem_map.mpr ⟨_, hpb, rfl⟩)
          rw [← asked_update hq] at hq
          rw [Function.update_of_ne (ne_of_mem_of_not_mem hmem hq)]
          exact hanswer p b hpb
    · refine ⟨fun _ => default, ?_, by simp⟩
      exact List.prefix_cons_inj q |>.mpr List.nil_prefix

end Calls

end Portability.Routine
