import Portability.Proofs.Source.Session
import Portability.Store

/-! Routines that differ only in where they poll. -/

namespace Portability

namespace Run

variable {σ α β : Type} {rel : σ → σ → Prop} {x y : Run σ α} {f g : α → Run σ β}

def Agree (rel : σ → σ → Prop) (x y : Run σ α) : Prop :=
  ∀ s t, rel s t → ∃ r u v, x.run s = (r, u) ∧ y.run t = (r, v) ∧ rel u v

lemma Agree.pure (a : α) : Agree rel (pure a) (pure a) :=
  fun s t h => ⟨.ok a, s, t, rfl, rfl, h⟩

lemma Agree.throw (e : Failure) :
    Agree rel (throwThe Failure e : Run σ α) (throwThe Failure e) :=
  fun s t h => ⟨.error e, s, t, rfl, rfl, h⟩

lemma Agree.lift (r : Except Failure α) :
    Agree rel (liftM (m := Except Failure) r) (liftM (m := Except Failure) r) :=
  fun s t h => ⟨r, s, t, by cases r <;> rfl, by cases r <;> rfl, h⟩

lemma Agree.modify {step step' : σ → σ} (h : ∀ s t, rel s t → rel (step s) (step' t)) :
    Agree rel (modifyThe σ step : Run σ PUnit) (modifyThe σ step') :=
  fun s t hst => ⟨.ok (), step s, step' t, rfl, rfl, h s t hst⟩

lemma Agree.bind (hx : Agree rel x y) (hf : ∀ a, Agree rel (f a) (g a)) :
    Agree rel (x >>= f) (y >>= g) := by
  intro s t h
  obtain ⟨r, u, v, hu, hv, huv⟩ := hx s t h
  rw [run_bind, run_bind, hu, hv]
  cases r with
  | error e => exact ⟨.error e, u, v, rfl, rfl, huv⟩
  | ok a => exact hf a u v huv

lemma Agree.get {f g : σ → Run σ β} (h : ∀ s t, rel s t → Agree rel (f s) (g t)) :
    Agree rel (getThe σ >>= f) (getThe σ >>= g) :=
  fun s t hst => h s t hst s t hst

lemma run_tryCatch (x : Run σ α) (f : Failure → Run σ α) (s : σ) :
    (tryCatchThe Failure x f).run s =
      match x.run s with
      | (.ok a, t) => (.ok a, t)
      | (.error e, t) => (f e).run t := by
  simp only [tryCatchThe, MonadExceptOf.tryCatch, ExceptT.tryCatch, ExceptT.mk, ExceptT.run,
    Bind.bind, StateT.bind]
  rcases x s with ⟨_ | _, _⟩ <;> rfl

lemma Agree.tryCatch {f g : Failure → Run σ α} (hx : Agree rel x y)
    (hf : ∀ e, Agree rel (f e) (g e)) :
    Agree rel (tryCatchThe Failure x f) (tryCatchThe Failure y g) := by
  intro s t h
  obtain ⟨r, u, v, hu, hv, huv⟩ := hx s t h
  rw [run_tryCatch, run_tryCatch, hu, hv]
  cases r with
  | error e => exact hf e u v huv
  | ok a => exact ⟨.ok a, u, v, rfl, rfl, huv⟩

end Run

namespace Routine

variable {σ Query Answer Note α β : Type} {r r' : Routine Query Answer Note α}
variable {f f' : α → Routine Query Answer Note β}

def unpolled : Routine Query Answer Note α → Routine Query Answer Note α
  | done a => done a
  | fail e => fail e
  | poll next => next.unpolled
  | note n next => note n next.unpolled
  | ask q next => ask q fun a => (next a).unpolled

/-- The second routine does what the first does, with further polls on the way. -/
inductive Delays : Routine Query Answer Note α → Routine Query Answer Note α → Prop
  | done (a : α) : Delays (done a) (done a)
  | fail (e : Failure) : Delays (fail e) (fail e)
  | extra {r r' : Routine Query Answer Note α} : Delays r r' → Delays r (poll r')
  | poll {r r' : Routine Query Answer Note α} : Delays r r' → Delays (poll r) (poll r')
  | note {r r' : Routine Query Answer Note α} (n : Note) :
    Delays r r' → Delays (note n r) (note n r')
  | ask {f f' : Answer → Routine Query Answer Note α} (q : Query) :
    (∀ a, Delays (f a) (f' a)) → Delays (ask q f) (ask q f')

lemma Delays.refl (r : Routine Query Answer Note α) : r.Delays r := by
  induction r with
  | done a => exact .done a
  | fail e => exact .fail e
  | poll next ih => exact .poll ih
  | note n next ih => exact .note n ih
  | ask q next ih => exact .ask q ih

lemma Delays.bind (h : r.Delays r') (hf : ∀ a, (f a).Delays (f' a)) :
    (r >>= f).Delays (r' >>= f') := by
  induction h with
  | done a => exact hf a
  | fail e => exact .fail e
  | extra _ ih => exact .extra ih
  | poll _ ih => exact .poll ih
  | note n _ ih => exact .note n ih
  | ask q _ ih => exact .ask q ih

lemma Delays.unpolled_eq (h : r.Delays r') : r'.unpolled = r.unpolled := by
  induction h with
  | done a => rfl
  | fail e => rfl
  | extra _ ih => exact ih
  | poll _ ih => exact ih
  | note n _ ih => exact congrArg (Routine.note n) ih
  | ask q _ ih => exact congrArg (Routine.ask q) (funext ih)

lemma run_unpolled {rel : σ → σ → Prop} {h : Handler σ Query Answer Note}
    (hp : ∀ s t, rel s t → ∃ u, h.poll.run t = (.ok (), u) ∧ rel s u)
    (hn : ∀ n, Run.Agree rel (h.note n) (h.note n)) (ha : ∀ q, Run.Agree rel (h.ask q) (h.ask q))
    (r : Routine Query Answer Note α) : Run.Agree rel (r.unpolled.run h) (r.run h) := by
  induction r with
  | done a => exact .pure a
  | fail e => exact .throw e
  | poll next ih =>
    intro s t hst
    obtain ⟨u, hpass, hsu⟩ := hp s t hst
    have hrun : (next.poll.run h).run t = (next.run h).run u := Run.run_bind_of_ok hpass
    rw [hrun]
    exact ih s u hsu
  | note n next ih => exact (hn n).bind fun _ => ih
  | ask q next ih => exact (ha q).bind ih

end Routine

section Variants

variable {files : Files}

lemma Catalog.unpolled_build {Query Answer Note : Type} (xs : List Identifier) :
    (build xs : Routine Query Answer Note Catalog).unpolled = .done (ofList xs) := by
  rw [build, ofList]
  generalize empty = catalog
  induction xs generalizing catalog with
  | nil => rfl
  | cons x xs ih => exact ih (catalog.insert x)

mutual

lemma Source.delays_readAsync (source : Source) (position : Position) :
    (source.read files position).Delays (source.readAsync files position) := by
  cases source with
  | text | empty =>
    rw [readAsync]
    exact .refl _
  | file | resource | silent =>
    rw [readAsync]
    exact .extra (.refl _)
  | fallback parts =>
    rw [read, readAsync]
    exact delays_readFirstAsync parts position 0

lemma Source.delays_readFirstAsync (parts : List Source) (position : Position) (number : Nat) :
    (readFirst files position number parts).Delays
      (readFirstAsync files position number parts) := by
  cases parts with
  | nil =>
    rw [readFirst, readFirstAsync]
    exact .done none
  | cons part parts =>
    have hrest := delays_readFirstAsync parts position (number + 1)
    rw [readFirst, readFirstAsync]
    refine .poll (Routine.Delays.bind (.refl _) fun available => ?_)
    cases available with
    | false => exact hrest
    | true =>
      refine (delays_readAsync part (number :: position)).bind fun entries => ?_
      refine Routine.Delays.bind (.refl _) fun _ => ?_
      cases entries with
      | some xs => exact .refl _
      | none => exact hrest

end

lemma Source.unpolled_readAsync (source : Source) (position : Position) :
    (source.readAsync files position).unpolled = (source.read files position).unpolled :=
  (delays_readAsync source position).unpolled_eq

lemma Store.unpolled_getAsync (store : Store) (given : Option Source) :
    (store.getAsync files given).unpolled = (store.get files given).unpolled := by
  rw [getAsync, getFromAsync, get, getFrom, Routine.unpolled, Routine.unpolled]
  cases store.isInitialized with
  | true => rfl
  | false => rfl

end Variants

namespace Reading

variable {files : Files} {α : Type} {r r' : Reading α} {s t : Session}

structure Session.Beside (s t : Session) : Prop where
  events : s.events = t.events
  memory : s.memory = t.memory
  left : s.token.NeverFires
  right : t.token.NeverFires

lemma Session.check_agree {rel : Session → Session → Prop}
    (hm : ∀ s t, rel s t → s.memory = t.memory)
    (hr : ∀ position available s t, rel s t →
      rel (s.remember position available) (t.remember position available)) (q : Availability) :
    Run.Agree rel (check files q) (check files q) := by
  refine .get fun s t h => ?_
  have hrecall : s.recalled? q.position = t.recalled? q.position := by
    rw [recalled?, recalled?, hm s t h]
  rw [hrecall]
  cases t.recalled? q.position with
  | some available => exact .pure available
  | none =>
    exact (Run.Agree.lift _).bind fun available =>
      .bind (.modify (hr q.position available)) fun _ => .pure _

lemma perform_unpolled (files : Files) (r : Reading α) (h : s.Beside t) : ∃ x u v,
    perform files r.unpolled s = (x, u) ∧ perform files r t = (x, v) ∧ u.Beside v := by
  refine Routine.run_unpolled (fun s t h => ⟨t.after 1, ?_, ?_⟩) (fun n => ?_) (fun q => ?_) r s t h
  · have hpoll : Session.poll.run t = (if t.token.poll.1 then .ok () else .error Token.fired,
        t.after 1) := Run.pollIn_run Session.token Session.withToken t
    exact hpoll.trans (by rw [if_pos h.right.poll_fst])
  · exact ⟨h.events, h.memory, h.left, h.right.poll_snd⟩
  · exact .modify fun s t h => ⟨congrArg (· ++ [n]) h.events, h.memory, h.left, h.right⟩
  · exact Session.check_agree (fun s t h => h.memory)
      (fun position available s t h => ⟨h.events, congrArg (List.cons _) h.memory, h.left, h.right⟩) q

lemma perform_agree (files : Files) (hr : r.unpolled = r'.unpolled) (h : s.Beside t) : ∃ x u v,
    perform files r s = (x, u) ∧ perform files r' t = (x, v) ∧ u.Beside v := by
  obtain ⟨x, u, v, hu, hv, huv⟩ := perform_unpolled files r ⟨rfl, rfl, h.left, h.left⟩
  obtain ⟨x', u', v', hu', hv', huv'⟩ := perform_unpolled files r' h
  rw [← hr, hu] at hu'
  cases hu'
  exact ⟨x, v, v', hv, hv', huv.events.symm.trans huv'.events, huv.memory.symm.trans huv'.memory,
    huv.right, huv'.right⟩

end Reading

end Portability
