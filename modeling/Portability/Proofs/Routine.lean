import Portability.Proofs.Outcome

/-! What a routine comes to when none of its polls fires, and what it asks on the way. -/

namespace Portability.Routine

variable {σ Query Answer Note α β : Type} {answer : Query → Answer}

def value (answer : Query → Answer) : Routine Query Answer Note α → Except Failure α
  | done a => .ok a
  | fail e => .error e
  | poll next => next.value answer
  | note _ next => next.value answer
  | ask q next => (next (answer q)).value answer

def asked (answer : Query → Answer) : Routine Query Answer Note α → List Query
  | done _ | fail _ => []
  | poll next => next.asked answer
  | note _ next => next.asked answer
  | ask q next => q :: (next (answer q)).asked answer

lemma value_bind (r : Routine Query Answer Note α) (f : α → Routine Query Answer Note β) :
    (r >>= f).value answer = r.value answer >>= fun a => (f a).value answer := by
  change (r.bind f).value answer = _
  induction r with
  | done a => rfl
  | fail e => rfl
  | poll next ih => exact ih
  | note n next ih => exact ih
  | ask q next ih => exact ih (answer q)

lemma asked_bind_of_ok {r : Routine Query Answer Note α} {a : α} (h : r.value answer = .ok a)
    (f : α → Routine Query Answer Note β) :
    (r >>= f).asked answer = r.asked answer ++ (f a).asked answer := by
  change (r.bind f).asked answer = _
  induction r with
  | done b =>
    obtain rfl := Except.ok.inj h
    rfl
  | fail e => cases h
  | poll next ih => exact ih h
  | note n next ih => exact ih h
  | ask q next ih => exact congrArg (q :: ·) (ih (answer q) h)

lemma value_congr {answer' : Query → Answer} {r : Routine Query Answer Note α}
    (h : ∀ q ∈ r.asked answer, answer' q = answer q) :
    r.value answer' = r.value answer ∧ r.asked answer' = r.asked answer := by
  induction r with
  | done a => exact ⟨rfl, rfl⟩
  | fail e => exact ⟨rfl, rfl⟩
  | poll next ih => exact ih h
  | note n next ih => exact ih h
  | ask q next ih =>
    obtain ⟨hv, ha⟩ := ih (answer q) fun p hp => h p (List.mem_cons_of_mem _ hp)
    rw [value, value, asked, asked, h q List.mem_cons_self]
    exact ⟨hv, congrArg (q :: ·) ha⟩

lemma run_bind (h : Handler σ Query Answer Note) (r : Routine Query Answer Note α)
    (f : α → Routine Query Answer Note β) :
    (r >>= f).run h = r.run h >>= fun a => (f a).run h := by
  change (r.bind f).run h = _
  induction r with
  | done a => exact (pure_bind a fun a => (f a).run h).symm
  | fail e => rfl
  | poll next ih => exact (congrArg (h.poll >>= ·) (funext fun _ => ih)).trans (bind_assoc ..).symm
  | note n next ih => exact (congrArg (h.note n >>= ·) (funext fun _ => ih)).trans (bind_assoc ..).symm
  | ask q next ih => exact (congrArg (h.ask q >>= ·) (funext ih)).trans (bind_assoc ..).symm

lemma run_yields {inv : σ → Prop} {h : Handler σ Query Answer Note}
    (hp : Run.Yields inv h.poll (.ok ())) (hn : ∀ n, Run.Yields inv (h.note n) (.ok ()))
    (ha : ∀ q, Run.Yields inv (h.ask q) (.ok (answer q))) (r : Routine Query Answer Note α) :
    Run.Yields inv (r.run h) (r.value answer) := by
  induction r with
  | done a => exact .pure
  | fail e => exact .throw
  | poll next ih => exact hp.andThen ih
  | note n next ih => exact (hn n).andThen ih
  | ask q next ih => exact (ha q).andThen (ih (answer q))

lemma run_attempts {inv : σ → Prop} {h : Handler σ Query Answer Note}
    (hp : Run.Attempts inv h.poll (.ok ())) (hn : ∀ n, Run.Attempts inv (h.note n) (.ok ()))
    (ha : ∀ q, Run.Attempts inv (h.ask q) (.ok (answer q))) (r : Routine Query Answer Note α) :
    Run.Attempts inv (r.run h) (r.value answer) := by
  induction r with
  | done a => exact Run.Yields.pure.attempts
  | fail e => exact Run.Yields.throw.attempts
  | poll next ih => exact hp.andThen ih
  | note n next ih => exact (hn n).andThen ih
  | ask q next ih => exact (ha q).andThen (ih (answer q))

def Ends (answer : Query → Answer) (r : Routine Query Answer Note α)
    (post : α → List Query → Prop) : Prop :=
  ∀ a, r.value answer = .ok a → post a (r.asked answer)

def Attains (answer : Query → Answer) (r : Routine Query Answer Note α)
    (post : α → List Query → Prop) : Prop :=
  ∃ a, r.value answer = .ok a ∧ post a (r.asked answer)

variable {r : Routine Query Answer Note α} {f : α → Routine Query Answer Note β} {a : α}
variable {pre post : α → List Query → Prop} {next : β → List Query → Prop}

lemma Ends.done (h : post a []) : (done a : Routine Query Answer Note α).Ends answer post := by
  intro b hb
  exact Except.ok.inj hb ▸ h

lemma Ends.mono (h : r.Ends answer pre) (hp : ∀ a qs, pre a qs → post a qs) :
    r.Ends answer post :=
  fun a ha => hp _ _ (h a ha)

lemma Ends.bind (h : r.Ends answer pre)
    (hf : ∀ a qs, pre a qs → (f a).Ends answer fun b qs' => next b (qs ++ qs')) :
    (r >>= f).Ends answer next := by
  intro b hb
  rw [value_bind] at hb
  obtain ⟨a, ha, hb⟩ := Outcome.bind_eq_ok_iff.mp hb
  rw [asked_bind_of_ok ha]
  exact hf a _ (h a ha) b hb

lemma Ends.and (h : r.Ends answer pre) (h' : r.Ends answer post) :
    r.Ends answer fun a qs => pre a qs ∧ post a qs :=
  fun a ha => ⟨h a ha, h' a ha⟩

lemma Ends.and_attains (h : r.Ends answer pre) (ha : r.Attains answer post) :
    r.Attains answer fun a qs => pre a qs ∧ post a qs := by
  obtain ⟨a, hv, hp⟩ := ha
  exact ⟨a, hv, h a hv, hp⟩

lemma Attains.done (h : post a []) :
    (Routine.done a : Routine Query Answer Note α).Attains answer post :=
  ⟨a, rfl, h⟩

lemma Attains.poll (h : r.Attains answer post) : r.poll.Attains answer post := h

lemma Attains.note {n : Note} (h : r.Attains answer post) : (r.note n).Attains answer post := h

lemma Attains.ask {q : Query} {k : Answer → Routine Query Answer Note α}
    (h : (k (answer q)).Attains answer fun a qs => post a (q :: qs)) :
    (Routine.ask q k).Attains answer post := h

lemma Attains.mono (h : r.Attains answer pre) (hp : ∀ a qs, pre a qs → post a qs) :
    r.Attains answer post := by
  obtain ⟨a, ha, hpre⟩ := h
  exact ⟨a, ha, hp _ _ hpre⟩

lemma Attains.bind (h : r.Attains answer pre)
    (hf : ∀ a qs, pre a qs → (f a).Attains answer fun b qs' => next b (qs ++ qs')) :
    (r >>= f).Attains answer next := by
  obtain ⟨a, ha, hpre⟩ := h
  obtain ⟨b, hb, hnext⟩ := hf a _ hpre
  refine ⟨b, ?_, ?_⟩
  · rw [value_bind, ha]
    exact hb
  · rw [asked_bind_of_ok ha]
    exact hnext

end Portability.Routine
