import Portability.Proofs.Calls
import Portability.Proofs.Source.Session

namespace Portability

namespace Routine

variable {σ Query Answer Note α β : Type} {answer : Query → Except Failure Answer}
variable {r : Routine Query Answer Note α} {f : α → Routine Query Answer Note β}
variable {p p' : Query → Prop} {noted : Note → Prop}

def result (answer : Query → Except Failure Answer) : Routine Query Answer Note α → Except Failure α
  | done a => .ok a
  | fail e => .error e
  | poll next => next.result answer
  | note _ next => next.result answer
  | ask q next => answer q >>= fun a => (next a).result answer

lemma result_bind (r : Routine Query Answer Note α) (f : α → Routine Query Answer Note β) :
    (r >>= f).result answer = r.result answer >>= fun a => (f a).result answer := by
  change (r.bind f).result answer = _
  induction r with
  | done a => rfl
  | fail e => rfl
  | poll next ih => exact ih
  | note n next ih => exact ih
  | ask q next ih =>
    rw [Routine.bind, result, result, bind_assoc]
    exact congrArg (answer q >>= ·) (funext ih)

lemma result_ofExcept (x : Except Failure α) :
    (ofExcept x : Routine Query Answer Note α).result answer = x := by
  cases x <;> rfl

lemma AsksOnly.mono (h : r.AsksOnly p) (hp : ∀ q, p q → p' q) : r.AsksOnly p' := by
  induction r with
  | done a => trivial
  | fail e => trivial
  | poll next ih => exact ih h
  | note n next ih => exact ih h
  | ask q next ih => exact ⟨hp q h.1, fun a => ih a (h.2 a)⟩

def NotesOnly (noted : Note → Prop) : Routine Query Answer Note α → Prop
  | done _ | fail _ => True
  | poll next => next.NotesOnly noted
  | note n next => noted n ∧ next.NotesOnly noted
  | ask _ next => ∀ a, (next a).NotesOnly noted

lemma NotesOnly.bind (h : r.NotesOnly noted) (hf : ∀ a, (f a).NotesOnly noted) :
    (r >>= f).NotesOnly noted := by
  change (r.bind f).NotesOnly noted
  induction r with
  | done a => exact hf a
  | fail e => trivial
  | poll next ih => exact ih h
  | note n next ih => exact ⟨h.1, ih h.2⟩
  | ask q next ih => exact fun a => ih a (h a)

structure Limited (p : Query → Prop) (noted : Note → Prop) (r : Routine Query Answer Note α) :
    Prop where
  asks : r.AsksOnly p
  notes : r.NotesOnly noted

namespace Limited

lemma done (a : α) : (Routine.done a : Routine Query Answer Note α).Limited p noted where
  asks := trivial
  notes := trivial

lemma fail (e : Failure) : (Routine.fail e : Routine Query Answer Note α).Limited p noted where
  asks := trivial
  notes := trivial

lemma poll (h : r.Limited p noted) : (Routine.poll r).Limited p noted := ⟨h.asks, h.notes⟩

lemma note {n : Note} (hn : noted n) (h : r.Limited p noted) :
    (Routine.note n r).Limited p noted where
  asks := h.asks
  notes := ⟨hn, h.notes⟩

lemma ask {q : Query} {next : Answer → Routine Query Answer Note α} (hq : p q)
    (h : ∀ a, (next a).Limited p noted) : (Routine.ask q next).Limited p noted where
  asks := ⟨hq, fun a => (h a).asks⟩
  notes a := (h a).notes

lemma bind (h : r.Limited p noted) (hf : ∀ a, (f a).Limited p noted) :
    (r >>= f).Limited p noted where
  asks := h.asks.bind fun a => (hf a).asks
  notes := h.notes.bind fun a => (hf a).notes

lemma mono (h : r.Limited p noted) (hp : ∀ q, p q → p' q) : r.Limited p' noted where
  asks := h.asks.mono hp
  notes := h.notes

lemma ofExcept (x : Except Failure α) :
    (Routine.ofExcept x : Routine Query Answer Note α).Limited p noted := by
  cases x with
  | ok a => exact done a
  | error e => exact fail e

end Limited

lemma run_yields_result {inv : σ → Prop} {h : Handler σ Query Answer Note}
    (hp : Run.Yields inv h.poll (.ok ())) (hn : ∀ n, Run.Yields inv (h.note n) (.ok ()))
    (ha : ∀ q, p q → Run.Yields inv (h.ask q) (answer q)) (hr : r.AsksOnly p) :
    Run.Yields inv (r.run h) (r.result answer) := by
  induction r with
  | done a => exact .pure
  | fail e => exact .throw
  | poll next ih => exact hp.andThen (ih hr)
  | note n next ih => exact (hn n).andThen (ih hr)
  | ask q next ih => exact (ha q hr.1).bind fun a _ => ih a (hr.2 a)

end Routine

namespace Reading

variable {files : Files} {qs : List Availability} {q : Availability} {s : Session} {α : Type}
variable {r : Reading α}

def there (files : Files) (q : Availability) : Except Failure Bool :=
  Source.resourceExists files q.package q.name

namespace Session

structure Current (files : Files) (qs : List Availability) (s : Session) : Prop where
  token : s.token.NeverFires
  memory : ∀ q ∈ qs, ∀ available, s.recalled? q.position = some available →
    there files q = .ok available

lemma current_fresh {token : Token} (ht : token.NeverFires) :
    Current files qs { token } :=
  ⟨ht, fun q _ available h => by simp [recalled?] at h⟩

lemma recalled?_remember (s : Session) (position position' : Position) (available : Bool) :
    (s.remember position available).recalled? position' =
      if position = position' then some available else s.recalled? position' := by
  rw [recalled?, remember, List.find?_cons]
  by_cases h : position = position' <;> simp [h, recalled?]

lemma Current.remember (h : s.Current files qs) (hd : (qs.map Availability.position).Nodup)
    (hq : q ∈ qs) {available : Bool} (ha : there files q = .ok available) :
    (s.remember q.position available).Current files qs := by
  refine ⟨h.token, fun q' hq' available' hrecall => ?_⟩
  rw [recalled?_remember] at hrecall
  split at hrecall
  · next hposition =>
    obtain rfl := List.inj_on_of_nodup_map hd hq hq' hposition
    rw [ha, Option.some.inj hrecall]
  · exact h.memory q' hq' available' hrecall

lemma check_current (hd : (qs.map Availability.position).Nodup) (hq : q ∈ qs) :
    Run.Yields (Current files qs) (check files q) (there files q) := by
  intro s hs
  rw [check, Run.run_get_bind]
  cases hr : s.recalled? q.position with
  | some available => exact ⟨s, by rw [hs.memory q hq available hr]; rfl, hs⟩
  | none =>
    cases ha : there files q with
    | error e =>
      rw [there] at ha
      simp only [ha]
      exact ⟨s, rfl, hs⟩
    | ok available =>
      have hnext := hs.remember hd hq ha
      rw [there] at ha
      simp only [ha]
      exact ⟨_, rfl, hnext⟩

lemma poll_current : Run.Yields (Current files qs) poll (.ok ()) := by
  intro s hs
  refine ⟨s.after 1, ?_, hs.token.poll_snd, hs.memory⟩
  rw [poll, Run.pollIn_run, hs.token.poll_fst]
  rfl

end Session

lemma perform_eq_result (hd : (qs.map Availability.position).Nodup) (hs : s.Current files qs)
    (hr : r.AsksOnly (· ∈ qs)) : (perform files r s).1 = r.result (there files) := by
  have hyields : Run.Yields (Session.Current files qs) (r.run (Session.handler files))
      (r.result (there files)) :=
    Routine.run_yields_result Session.poll_current
      (fun n => .modify fun s hs => ⟨hs.token, hs.memory⟩)
      (fun q hq => Session.check_current hd hq) hr
  obtain ⟨t, ht, -⟩ := hyields s hs
  exact congrArg Prod.fst ht

def Event.Mild : Event → Prop
  | .record r => r.level ≠ .error
  | .consulted => True

lemma limited_ofLines {p : Availability → Prop} (source : String) (line : Nat)
    (lines : List Text) : (ofLines source line lines).Limited p Event.Mild := by
  induction lines generalizing line with
  | nil => exact .done []
  | cons text rest ih =>
    rw [ofLines]
    apply Routine.Limited.poll
    split
    · exact ih (line + 1)
    · split
      · exact .fail _
      · exact (ih (line + 1)).bind fun xs => .done _

end Reading

namespace Source

open Reading

variable {files : Files} {position : Position} {number : Nat} {q : Availability}

mutual

def questions (position : Position) : Source → List Availability
  | resource package name => [⟨position, package, name⟩]
  | fallback parts => questionsOf position 0 parts
  | text .. | file _ | empty _ | silent => []

def questionsOf (position : Position) (number : Nat) : List Source → List Availability
  | [] => []
  | part :: parts => part.questions (number :: position) ++ questionsOf position (number + 1) parts

end

mutual

lemma suffix_of_mem_questions (source : Source) (position : Position)
    (hq : q ∈ source.questions position) : position <:+ q.position := by
  cases source with
  | resource package name =>
    rw [questions, List.mem_singleton] at hq
    exact hq ▸ List.suffix_refl position
  | fallback parts =>
    rw [questions] at hq
    obtain ⟨number, -, hsuffix⟩ := suffix_of_mem_questionsOf parts position 0 hq
    exact (List.suffix_cons number position).trans hsuffix
  | text | file | empty | silent =>
    rw [questions] at hq
    cases hq

lemma suffix_of_mem_questionsOf (parts : List Source) (position : Position) (number : Nat)
    (hq : q ∈ questionsOf position number parts) :
    ∃ k, number ≤ k ∧ k :: position <:+ q.position := by
  cases parts with
  | nil => cases hq
  | cons part parts =>
    rw [questionsOf, List.mem_append] at hq
    obtain hq | hq := hq
    · exact ⟨number, Nat.le_refl _, suffix_of_mem_questions part _ hq⟩
    · obtain ⟨k, hk, hsuffix⟩ := suffix_of_mem_questionsOf parts position (number + 1) hq
      exact ⟨k, Nat.le_of_succ_le hk, hsuffix⟩

end

mutual

lemma nodup_questions (source : Source) (position : Position) :
    ((source.questions position).map Availability.position).Nodup := by
  cases source with
  | resource package name => exact List.nodup_singleton _
  | fallback parts =>
    rw [questions]
    exact nodup_questionsOf parts position 0
  | text | file | empty | silent =>
    rw [questions]
    exact List.nodup_nil

lemma nodup_questionsOf (parts : List Source) (position : Position) (number : Nat) :
    ((questionsOf position number parts).map Availability.position).Nodup := by
  cases parts with
  | nil => exact List.nodup_nil
  | cons part parts =>
    rw [questionsOf, List.map_append]
    refine (nodup_questions part _).append (nodup_questionsOf parts position (number + 1)) ?_
    intro place hfirst hrest
    obtain ⟨q, hq, rfl⟩ := List.mem_map.mp hfirst
    obtain ⟨q', hq', hsame⟩ := List.mem_map.mp hrest
    obtain ⟨k, hk, hlater⟩ := suffix_of_mem_questionsOf parts position (number + 1) hq'
    have hnow := suffix_of_mem_questions part _ hq
    rw [hsame] at hlater
    have heq := (List.suffix_of_suffix_length_le hnow hlater (by simp)).eq_of_length (by simp)
    obtain rfl : number = k := (List.cons.inj heq).1
    omega

end

mutual

lemma limited_available (source : Source) (position : Position) :
    (source.available files position).Limited (· ∈ source.questions position) Event.Mild := by
  cases source with
  | resource package name =>
    rw [available, questions]
    exact .ask (List.mem_singleton_self _) .done
  | fallback parts =>
    rw [available, questions]
    exact limited_anyAvailable parts position 0
  | file path =>
    rw [available]
    exact .ofExcept _
  | text | empty | silent =>
    rw [available]
    exact .done _

lemma limited_anyAvailable (parts : List Source) (position : Position) (number : Nat) :
    (anyAvailable files position number parts).Limited (· ∈ questionsOf position number parts)
      Event.Mild := by
  cases parts with
  | nil => exact .done false
  | cons part parts =>
    rw [anyAvailable, questionsOf]
    have hpart := (limited_available part (number :: position)).mono fun q hq =>
      List.mem_append_left (questionsOf position (number + 1) parts) hq
    refine hpart.bind fun available => ?_
    cases available with
    | true => exact .done true
    | false =>
      exact (limited_anyAvailable parts position (number + 1)).mono fun q hq =>
        List.mem_append_right _ hq

end

lemma limited_ofDelivery {p : Availability → Prop} (source : String) (delivery : Delivery) :
    (ofDelivery source delivery).Limited p Event.Mild := by
  rcases delivery with ⟨lines, _ | fault⟩
  · exact limited_ofLines source 1 lines
  · exact (limited_ofLines source 1 lines).bind fun xs => .fail _

lemma limited_readFile {p : Availability → Prop} (path : Path) :
    (readFile files path).Limited p Event.Mild := by
  refine (Routine.Limited.ofExcept _).bind fun available => ?_
  cases available with
  | false => exact .note nofun (.done none)
  | true =>
    rw [if_pos rfl]
    cases files.read path with
    | error fault => exact .fail _
    | ok content =>
      exact (limited_ofDelivery _ _).bind fun xs => .note nofun (.done _)

lemma limited_readResource (position : Position) (package name : String) :
    (readResource files position package name).Limited
      (· ∈ (resource package name).questions position) Event.Mild := by
  refine .ask (List.mem_singleton_self _) fun available => ?_
  cases available with
  | false => exact .done none
  | true =>
    rw [if_pos rfl]
    refine (Routine.Limited.ofExcept _).bind fun found => ?_
    cases found with
    | none => exact .done none
    | some path =>
      dsimp only
      cases files.read path with
      | error fault => exact .fail _
      | ok content =>
        refine (Routine.Limited.ofExcept _).bind fun text => ?_
        exact (limited_ofLines _ 1 _).bind fun xs => .done _

mutual

lemma limited_read (source : Source) (position : Position) :
    (source.read files position).Limited (· ∈ source.questions position) Event.Mild := by
  cases source with
  | text content name =>
    rw [read]
    exact .poll ((limited_ofLines _ 1 _).bind fun xs => .done _)
  | file path =>
    rw [read]
    exact .poll (limited_readFile path)
  | resource package name =>
    rw [read]
    exact .poll (limited_readResource position package name)
  | fallback parts =>
    rw [read, questions]
    exact limited_readFirst parts position 0
  | empty | silent =>
    rw [read]
    exact .done _

lemma limited_readFirst (parts : List Source) (position : Position) (number : Nat) :
    (readFirst files position number parts).Limited (· ∈ questionsOf position number parts)
      Event.Mild := by
  cases parts with
  | nil => exact .done none
  | cons part parts =>
    have hfirst : ∀ q ∈ part.questions (number :: position), q ∈
        part.questions (number :: position) ++ questionsOf position (number + 1) parts :=
      fun q => List.mem_append_left _
    have hrest := (limited_readFirst parts position (number + 1)).mono fun q hq =>
      List.mem_append_right (part.questions (number :: position)) hq
    rw [readFirst, questionsOf]
    apply Routine.Limited.poll
    refine ((limited_available part (number :: position)).mono hfirst).bind fun available => ?_
    cases available with
    | false => exact hrest
    | true =>
      refine ((limited_read part (number :: position)).mono hfirst).bind fun entries => ?_
      cases entries with
      | some xs => exact .poll (.note nofun (.done _))
      | none => exact hrest.poll

end

end Source

end Portability
