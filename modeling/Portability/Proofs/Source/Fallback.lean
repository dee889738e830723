import Portability.Proofs.Source.Questions

/-! A tree of fallbacks is read as its leaves are, up to the first that decides. -/

namespace Portability

abbrev Entries := Except Failure (Option (List Identifier))

namespace Entries

variable {x y z : Entries} {xs ys : List Entries}

def orNext (x next : Entries) : Entries :=
  match x with
  | .ok none => next
  | decided => decided

lemma orNext_of_ne (h : x ≠ .ok none) : x.orNext y = x := by
  rcases x with e | _ | entries
  · rfl
  · exact (h rfl).elim
  · rfl

lemma orNext_none (x : Entries) : x.orNext (.ok none) = x := by
  rcases x with e | _ | entries <;> rfl

lemma orNext_assoc : (x.orNext y).orNext z = x.orNext (y.orNext z) := by
  by_cases hx : x = .ok none
  · subst hx
    rfl
  · rw [orNext_of_ne hx, orNext_of_ne hx, orNext_of_ne hx]

lemma bind_eq_orNext {f : Option (List Identifier) → Entries}
    (hs : ∀ entries, f (some entries) = .ok (some entries)) (hn : f none = y) :
    x >>= f = x.orNext y := by
  rcases x with e | _ | entries
  · rfl
  · exact hn
  · exact hs entries

def first (xs : List Entries) : Entries := xs.foldr orNext (.ok none)

lemma first_singleton (x : Entries) : first [x] = x := orNext_none x

lemma first_append : first (xs ++ ys) = (first xs).orNext (first ys) := by
  induction xs with
  | nil => rfl
  | cons x xs ih =>
    change x.orNext (first (xs ++ ys)) = (x.orNext (first xs)).orNext (first ys)
    rw [ih, orNext_assoc]

lemma first_eq_none_or (xs : List Entries) :
    (first xs = .ok none ∧ ∀ x ∈ xs, x = .ok none) ∨
      ∃ before after, xs = before ++ first xs :: after ∧ (∀ x ∈ before, x = .ok none) ∧
        first xs ≠ .ok none := by
  induction xs with
  | nil => exact .inl ⟨rfl, by simp⟩
  | cons x xs ih =>
    by_cases hx : x = .ok none
    · subst hx
      have hfirst : first (.ok none :: xs) = first xs := rfl
      rw [hfirst]
      obtain ⟨hnone, hall⟩ | ⟨before, after, hxs, hbefore, hne⟩ := ih
      · exact .inl ⟨hnone, List.forall_mem_cons.mpr ⟨rfl, hall⟩⟩
      · refine .inr ⟨.ok none :: before, after, ?_, List.forall_mem_cons.mpr ⟨rfl, hbefore⟩, hne⟩
        exact congrArg (List.cons _) hxs
    · have hfirst : first (x :: xs) = x := orNext_of_ne hx
      rw [hfirst]
      exact .inr ⟨[], xs, rfl, by simp, hx⟩

end Entries

namespace Source

open Reading

variable {files : Files} {position place : Position} {s t : Session}

mutual

def leaves : Source → List Source
  | fallback parts => leavesOf parts
  | source@(text ..) | source@(file _) | source@(resource ..) | source@(empty _) | source@silent =>
    [source]

def leavesOf : List Source → List Source
  | [] => []
  | part :: parts => part.leaves ++ leavesOf parts

end

lemma leavesOf_append (sources sources' : List Source) :
    leavesOf (sources ++ sources') = leavesOf sources ++ leavesOf sources' := by
  induction sources with
  | nil => rw [leavesOf, List.nil_append, List.nil_append]
  | cons source sources ih => rw [List.cons_append, leavesOf, leavesOf, ih, List.append_assoc]

mutual

lemma leavesOf_leaves (source : Source) : leavesOf source.leaves = source.leaves := by
  cases source with
  | fallback parts =>
    rw [leaves]
    exact leavesOf_leavesOf parts
  | text | file | resource | empty | silent => simp [leaves, leavesOf]

lemma leavesOf_leavesOf (parts : List Source) : leavesOf (leavesOf parts) = leavesOf parts := by
  cases parts with
  | nil => rw [leavesOf, leavesOf]
  | cons part parts =>
    rw [leavesOf, leavesOf_append, leavesOf_leaves part, leavesOf_leavesOf parts]

end

def supplies (files : Files) (source : Source) : Except Failure Bool :=
  (perform files (source.available files []) { token := .deaf }).1

def gives (files : Files) (source : Source) : Entries :=
  (perform files (source.read files []) { token := .deaf }).1

lemma supplies_eq (source : Source) :
    source.supplies files = (source.available files []).result (there files) :=
  perform_eq_result (nodup_questions source []) (Session.current_fresh Token.neverFires_deaf)
    (limited_available source []).asks

lemma gives_eq (source : Source) :
    source.gives files = (source.read files []).result (there files) :=
  perform_eq_result (nodup_questions source []) (Session.current_fresh Token.neverFires_deaf)
    (limited_read source []).asks

lemma result_guarded_parts (files : Files) (parts : List Source) (position : Position) (number : Nat) :
    ((anyAvailable files position number parts).result (there files) >>= fun available =>
      if available then (readFirst files position number parts).result (there files)
      else .ok none) = (readFirst files position number parts).result (there files) := by
  induction parts generalizing number with
  | nil => rfl
  | cons part parts ih =>
    rw [anyAvailable, readFirst, Routine.result, Routine.result_bind, Routine.result_bind]
    cases (part.available files (number :: position)).result (there files) with
    | error e => rfl
    | ok available =>
      cases available with
      | true => rfl
      | false => exact ih (number + 1)

lemma result_guarded (files : Files) (source : Source) (position : Position) :
    ((source.available files position).result (there files) >>= fun available =>
      if available then (source.read files position).result (there files) else .ok none) =
        (source.read files position).result (there files) := by
  cases source with
  | text content name => rw [available]; rfl
  | file path =>
    rw [available, read, Routine.result, readFile, Routine.result_bind, Routine.result_ofExcept]
    rcases files.isFile path with e | _ | _ <;> rfl
  | resource package name =>
    rw [available, read, Routine.result, readResource, Routine.result, Routine.result]
    rcases there files ⟨position, package, name⟩ with e | _ | _ <;> rfl
  | empty available => cases available <;> rw [Source.available, read] <;> rfl
  | silent => rw [available]; rfl
  | fallback parts =>
    rw [available, read]
    exact result_guarded_parts files parts position 0

lemma result_readFirst_cons (part : Source) (parts : List Source) (position : Position)
    (number : Nat) : (readFirst files position number (part :: parts)).result (there files) =
      Entries.orNext ((part.read files (number :: position)).result (there files))
        ((readFirst files position (number + 1) parts).result (there files)) := by
  have hguarded := result_guarded files part (number :: position)
  rw [readFirst, Routine.result, Routine.result_bind]
  cases ha : (part.available files (number :: position)).result (there files) with
  | error e =>
    rw [ha] at hguarded
    rw [← hguarded]
    rfl
  | ok available =>
    rw [ha] at hguarded
    cases available with
    | false =>
      rw [← hguarded]
      rfl
    | true =>
      change ((part.read files (number :: position) >>= _ : Reading _).result (there files)) = _
      rw [Routine.result_bind]
      exact Entries.bind_eq_orNext (fun xs => rfl) rfl

mutual

lemma result_read (source : Source) (position : Position) :
    (source.read files position).result (there files) =
      Entries.first (source.leaves.map (gives files)) := by
  cases source with
  | fallback parts =>
    rw [leaves, read]
    exact result_readFirst parts position 0
  | text | file | resource | empty | silent =>
    rw [leaves, List.map_singleton, Entries.first_singleton, gives_eq]
    rfl

lemma result_readFirst (parts : List Source) (position : Position) (number : Nat) :
    (readFirst files position number parts).result (there files) =
      Entries.first ((leavesOf parts).map (gives files)) := by
  cases parts with
  | nil =>
    rw [readFirst, leavesOf]
    rfl
  | cons part parts =>
    rw [result_readFirst_cons, result_read part, result_readFirst parts, leavesOf,
      List.map_append, Entries.first_append]

end

def PassedOver (files : Files) (source : Source) : Prop :=
  source.supplies files = .ok false ∨
    source.supplies files = .ok true ∧ source.gives files = .ok none

def Decides (files : Files) (source : Source) (outcome : Entries) : Prop :=
  outcome ≠ .ok none ∧
    (source.supplies files = .ok true ∧ source.gives files = outcome ∨
      ∃ e, source.supplies files = .error e ∧ outcome = .error e)

lemma passedOver_of_gives {source : Source} (h : source.gives files = .ok none) :
    source.PassedOver files := by
  have hguarded := result_guarded files source []
  rw [← supplies_eq, ← gives_eq] at hguarded
  cases ha : source.supplies files with
  | error e =>
    rw [ha, h] at hguarded
    cases hguarded
  | ok available =>
    cases available with
    | false => exact .inl ha
    | true => exact .inr ⟨ha, h⟩

lemma decides_of_gives {source : Source} {outcome : Entries} (h : source.gives files = outcome)
    (hne : outcome ≠ .ok none) : source.Decides files outcome := by
  have hguarded := result_guarded files source []
  rw [← supplies_eq, ← gives_eq] at hguarded
  refine ⟨hne, ?_⟩
  cases ha : source.supplies files with
  | error e =>
    rw [ha, h] at hguarded
    exact .inr ⟨e, rfl, hguarded.symm⟩
  | ok available =>
    cases available with
    | false =>
      rw [ha, h] at hguarded
      exact (hne hguarded.symm).elim
    | true => exact .inl ⟨rfl, h⟩

/-- A tree of fallbacks is read as its leaves are, from left to right. The first leaf that is
available and gives a list, which may be empty, or fails decides, and no later one is read. -/
theorem read_eq_read_leaves {source : Source} (hs : s.Current files (source.questions position))
    (ht : t.Current files ((fallback source.leaves).questions place)) :
    let outcome := (perform files (source.read files position) s).1
    outcome = (perform files ((fallback source.leaves).read files place) t).1 ∧
      (outcome = .ok none ∧ (∀ leaf ∈ source.leaves, leaf.PassedOver files) ∨
        ∃ before leaf after, source.leaves = before ++ leaf :: after ∧
          (∀ other ∈ before, other.PassedOver files) ∧ leaf.Decides files outcome) := by
  intro outcome
  have htree : outcome = Entries.first (source.leaves.map (gives files)) :=
    (perform_eq_result (nodup_questions _ _) hs (limited_read _ _).asks).trans (result_read source _)
  have hflat : (perform files ((fallback source.leaves).read files place) t).1 =
      Entries.first (source.leaves.map (gives files)) := by
    rw [perform_eq_result (nodup_questions _ _) ht (limited_read _ _).asks, result_read, leaves,
      leavesOf_leaves]
  refine ⟨htree.trans hflat.symm, ?_⟩
  rw [htree]
  obtain ⟨hnone, hall⟩ | ⟨before, after, hsplit, hbefore, hne⟩ :=
    Entries.first_eq_none_or (source.leaves.map (gives files))
  · exact .inl ⟨hnone, fun leaf hleaf => passedOver_of_gives (hall _ (List.mem_map_of_mem hleaf))⟩
  · obtain ⟨passed, rest, hleaves, rfl, hrest⟩ := List.map_eq_append_iff.mp hsplit
    obtain ⟨leaf, later, rfl, hgives, -⟩ := List.map_eq_cons_iff.mp hrest
    refine .inr ⟨passed, leaf, later, hleaves, fun other hother => ?_, decides_of_gives hgives hne⟩
    exact passedOver_of_gives (hbefore _ (List.mem_map_of_mem hother))

def shelf : Files where
  here := []
  nodes := [(["list.txt"], .file .empty)]
  modules := [("data", .package ["data"])]

def stacked : Source := .fallback [
  .fallback [.resource "data" "list.txt", .silent],
  .fallback [.fallback [], .file (Path.ofString "list.txt")],
  .text (Text.ofString "N-A") "last"]

theorem read_stacked :
    (perform shelf (stacked.read shelf []) ⟨.live, [], [([0, 0], false)]⟩).1 = .ok (some []) ∧
      (perform shelf ((fallback stacked.leaves).read shelf []) { token := .deaf }).1 =
        .ok (some []) := by
  have hs : Session.Current shelf (stacked.questions []) ⟨.live, [], [([0, 0], false)]⟩ := by
    refine ⟨Token.neverFires_live, fun q hq available hrecall => ?_⟩
    obtain rfl : q = ⟨[0, 0], "data", "list.txt"⟩ := by
      simpa [stacked, questions, questionsOf] using hq
    obtain rfl : false = available := by simpa [Session.recalled?] using hrecall
    decide
  have hread : (perform shelf (stacked.read shelf []) ⟨.live, [], [([0, 0], false)]⟩).1 =
      .ok (some []) := by decide
  have ht : Session.Current shelf ((fallback stacked.leaves).questions []) { token := .deaf } :=
    Session.current_fresh Token.neverFires_deaf
  exact ⟨hread, (read_eq_read_leaves hs ht).1.symm.trans hread⟩

end Source

end Portability
