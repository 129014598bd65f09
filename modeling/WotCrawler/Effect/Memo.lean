import WotCrawler.Sequence.Roster

/-! A table that concurrent calls fill in: a call looks its key up and, where the key is missing,
fetches a value without holding the table and stores it. -/

namespace WotCrawler.Effect

open Sequence

/-- One call: it has yet to look, fetches, has its value, or was given up. -/
inductive Lookup (Key Value : Type) where
  | asking (key : Key)
  | filling (key : Key)
  | answered (key : Key) (value : Value)
  | dropped

/-- The table and its calls, with a count for each key of the fetches begun and of those given up. -/
structure Memo (Key Value : Type) where
  entries : Key → Option Value
  fetches : Key → Nat
  lost : Key → Nat
  calls : List (Lookup Key Value)

namespace Memo

variable {Key Value : Type} {yields : Key → Value → Prop} {memo : Memo Key Value}

def empty : Memo Key Value where
  entries := fun _ => none
  fetches := fun _ => 0
  lost := fun _ => 0
  calls := []

/-- The table and the answers hold values that were fetched. -/
structure Sound (yields : Key → Value → Prop) (memo : Memo Key Value) : Prop where
  entries : ∀ key value, memo.entries key = some value → yields key value
  answers : ∀ key value, .answered key value ∈ memo.calls → yields key value

theorem Sound.empty : Sound yields (empty : Memo Key Value) where
  entries := fun _ _ present => by cases present
  answers := fun _ _ member => by cases member

/-- A call moves on, and its answer, if it has one now, was fetched. -/
private theorem Sound.set (sound : Sound yields memo) {call : Lookup Key Value}
    (fetched : ∀ key value, call = .answered key value → yields key value) (key : Key) (value : Value)
    (member : .answered key value ∈ memo.calls.set index call) : yields key value := by
  rcases List.mem_or_eq_of_mem_set member with old | same
  · exact sound.answers key value old
  · exact fetched key value same.symm

/-- Whoever has its answer after a call moved on had it before, or is that call. -/
private theorem answered_set {calls : List (Lookup Key Value)} {call : Lookup Key Value} {key : Key} {answer : Value}
    {index moved : Nat}
    (found : (calls.set moved call)[index]? = some (.answered key answer)) :
    calls[index]? = some (.answered key answer) ∨ call = .answered key answer := by
  by_cases same : moved = index
  · subst same
    obtain ⟨bound, there⟩ := List.getElem?_eq_some_iff.mp found
    exact .inr (by simpa using there)
  · rw [List.getElem?_set_ne same] at found
    exact .inl found

variable [DecidableEq Key]

/-- A call is fetching the key. -/
def fills (key : Key) : Lookup Key Value → Bool
  | .filling other => other = key
  | _ => false

/-- The calls that are fetching the key. -/
def filling (memo : Memo Key Value) (key : Key) : Nat := memo.calls.countP (fills key)

/-- One atomic step, where a fetch may yield any of the key's values. -/
inductive Step (yields : Key → Value → Prop) (memo : Memo Key Value) : Memo Key Value → Prop where
  | call (key : Key) : Step yields memo { memo with calls := memo.calls ++ [.asking key] }
  | hit (found : memo.calls[index]? = some (.asking key)) (present : memo.entries key = some value) :
      Step yields memo { memo with calls := memo.calls.set index (.answered key value) }
  | miss (found : memo.calls[index]? = some (.asking key)) (absent : memo.entries key = none) :
      Step yields memo { memo with
        fetches := Function.update memo.fetches key (memo.fetches key + 1)
        calls := memo.calls.set index (.filling key) }
  | fill (found : memo.calls[index]? = some (.filling key)) (yielded : yields key value) :
      Step yields memo { memo with
        entries := Function.update memo.entries key (some value)
        calls := memo.calls.set index (.answered key value) }
  | leave (found : memo.calls[index]? = some (.asking key)) :
      Step yields memo { memo with calls := memo.calls.set index .dropped }
  | abandon (found : memo.calls[index]? = some (.filling key)) :
      Step yields memo { memo with
        lost := Function.update memo.lost key (memo.lost key + 1)
        calls := memo.calls.set index .dropped }

variable {after : Memo Key Value} {key : Key} {value answer : Value} {index : Nat}

theorem Sound.step (sound : Sound yields memo) (step : Step yields memo after) : Sound yields after := by
  cases step with
  | call key =>
    refine ⟨sound.entries, ?_⟩
    intro other value member
    rcases List.mem_append.mp member with old | new
    · exact sound.answers other value old
    · cases List.mem_singleton.mp new
  | hit found present =>
    refine ⟨sound.entries, sound.set ?_⟩
    rintro _ _ ⟨⟩
    exact sound.entries _ _ present
  | miss found absent => exact ⟨sound.entries, sound.set fun _ _ same => by cases same⟩
  | @fill _ key value found yielded =>
    refine ⟨?_, sound.set ?_⟩
    · intro other held present
      dsimp only at present
      by_cases same : other = key
      · subst same
        rw [Function.update_self] at present
        exact Option.some.inj present ▸ yielded
      · rw [Function.update_of_ne same] at present
        exact sound.entries other held present
    · rintro _ _ ⟨⟩
      exact yielded
  | leave found => exact ⟨sound.entries, sound.set fun _ _ same => by cases same⟩
  | abandon found => exact ⟨sound.entries, sound.set fun _ _ same => by cases same⟩

theorem Sound.run (sound : Sound yields memo) (run : Relation.ReflTransGen (Step yields) memo after) : Sound yields after := by
  induction run with
  | refl => exact sound
  | tail _ step ih => exact ih.step step

/-- A step that leaves an entry begins no fetch of its key. -/
theorem Step.fetches_eq (step : Step yields memo after) (present : (after.entries key).isSome) :
    after.fetches key = memo.fetches key ∧ memo.lost key ≤ after.lost key := by
  cases step with
  | @miss _ other found absent =>
    have apart : key ≠ other := by
      rintro rfl
      dsimp only at present
      rw [absent] at present
      cases present
    exact ⟨Function.update_of_ne apart _ _, le_rfl⟩
  | @abandon _ other found =>
    refine ⟨rfl, ?_⟩
    by_cases same : key = other <;> simp [same]
  | _ => exact ⟨rfl, le_rfl⟩

/-- Once a key has an entry it keeps one, and is not fetched again. -/
theorem Step.keeps_entry (step : Step yields memo after) (present : (memo.entries key).isSome) :
    (after.entries key).isSome ∧ after.fetches key = memo.fetches key := by
  have kept : (after.entries key).isSome := by
    cases step with
    | @fill _ other _ found yielded =>
      dsimp only
      by_cases same : key = other
      · rw [same, Function.update_self]
        rfl
      · rwa [Function.update_of_ne same]
    | _ => exact present
  exact ⟨kept, (step.fetches_eq kept).1⟩

theorem keeps_entry (run : Relation.ReflTransGen (Step yields) memo after) (present : (memo.entries key).isSome) :
    (after.entries key).isSome ∧ after.fetches key = memo.fetches key := by
  induction run with
  | refl => exact ⟨present, rfl⟩
  | tail _ step ih =>
    obtain ⟨kept, same⟩ := step.keeps_entry ih.1
    exact ⟨kept, same.trans ih.2⟩

/-- The fetches of a key without an entry are under way or were given up. -/
def Pending (memo : Memo Key Value) : Prop :=
  ∀ key, memo.entries key = none → memo.fetches key = memo.filling key + memo.lost key

theorem Pending.empty : Pending (empty : Memo Key Value) := fun _ _ => rfl

private theorem filling_set_idle {old new : Lookup Key Value} (found : memo.calls[index]? = some old)
    (idle : fills key old = false) (still : fills key new = false) :
    (memo.calls.set index new).countP (fills key) = memo.filling key :=
  countP_set_same found (still.trans idle.symm)

theorem Pending.step (pending : Pending memo) (step : Step yields memo after) : Pending after := by
  intro key absent
  cases step with
  | call other =>
    have counted := pending key absent
    simpa [filling, fills, List.countP_append] using counted
  | hit found present => exact (pending key absent).trans (congrArg (· + _) (filling_set_idle found rfl rfl).symm)
  | @miss index other found missing =>
    have counted := pending key absent
    by_cases same : other = key
    · subst same
      have more : (memo.calls.set index (.filling other)).countP (fills other) = memo.filling other + 1 :=
        countP_set_add found rfl (decide_eq_true rfl)
      simp only [filling, more, Function.update_self]
      rw [counted, filling]
      omega
    · have still : (memo.calls.set index (.filling other)).countP (fills key) = memo.filling key :=
        filling_set_idle found rfl (decide_eq_false same)
      simp only [filling, still, Function.update_of_ne (Ne.symm same)]
      exact counted
  | @fill index other value found yielded =>
    have apart : other ≠ key := by
      rintro rfl
      simp at absent
    have still : (memo.calls.set index (.answered other value)).countP (fills key) = memo.filling key :=
      filling_set_idle found (decide_eq_false apart) rfl
    simp only [Function.update_of_ne (Ne.symm apart)] at absent
    simp only [filling, still]
    exact pending key absent
  | leave found => exact (pending key absent).trans (congrArg (· + _) (filling_set_idle found rfl rfl).symm)
  | @abandon index other found =>
    have counted := pending key absent
    by_cases same : other = key
    · subst same
      have fewer : (memo.calls.set index .dropped).countP (fills other) + 1 = memo.filling other :=
        countP_set_sub found (decide_eq_true rfl) rfl
      simp only [filling, Function.update_self]
      omega
    · have still : (memo.calls.set index .dropped).countP (fills key) = memo.filling key :=
        filling_set_idle found (decide_eq_false same) rfl
      simp only [filling, still, Function.update_of_ne (Ne.symm same)]
      exact counted

/-- Where no more than so many calls fetch the key at once, it is fetched no more often than that,
those given up apart. -/
theorem fetches_le {most : Nat} (run : Relation.ReflTransGen
      (fun memo after => Step yields memo after ∧ after.filling key ≤ most) empty memo) :
    memo.fetches key ≤ most + memo.lost key := by
  have spent : Pending memo ∧ memo.filling key ≤ most ∧ memo.fetches key ≤ most + memo.lost key := by
    induction run with
    | refl => exact ⟨.empty, Nat.zero_le _, Nat.zero_le _⟩
    | @tail before after _ step ih =>
      obtain ⟨pending, few, spent⟩ := ih
      have later := pending.step step.1
      refine ⟨later, step.2, ?_⟩
      cases absent : after.entries key with
      | none =>
        have counted := later key absent
        have bounded := step.2
        omega
      | some value =>
        have same := step.1.fetches_eq (by rw [absent]; rfl)
        omega
  exact spent.2.2

section Settled

/-- A key has its value, and nobody is fetching it any more. -/
structure Settled (memo : Memo Key Value) (key : Key) (value : Value) : Prop where
  entry : memo.entries key = some value
  quiet : memo.filling key = 0

/-- The calls that are fetching are others. -/
private theorem Settled.apart (settled : Settled memo key value) {other : Key}
    (found : memo.calls[index]? = some (.filling other)) : other ≠ key := by
  intro same
  exact List.countP_eq_zero.mp settled.quiet _ (List.mem_of_getElem? found) (decide_eq_true same)

/-- A settled key stays settled. -/
theorem Settled.step (settled : Settled memo key value) (step : Step yields memo after) : Settled after key value := by
  have entry := settled.entry
  have quiet := settled.quiet
  cases step with
  | call other => exact ⟨entry, by simpa [filling, fills, List.countP_append] using quiet⟩
  | hit found present => exact ⟨entry, (filling_set_idle found rfl rfl).trans quiet⟩
  | @miss _ other found absent =>
    have apart : other ≠ key := by
      rintro rfl
      cases absent.symm.trans entry
    have still : (memo.calls.set _ (.filling other)).countP (fills key) = memo.filling key :=
      filling_set_idle found rfl (decide_eq_false apart)
    exact ⟨entry, still.trans quiet⟩
  | fill found yielded =>
    have apart := settled.apart found
    exact ⟨(Function.update_of_ne (Ne.symm apart) _ _).trans entry,
      (filling_set_idle found (decide_eq_false apart) rfl).trans quiet⟩
  | leave found => exact ⟨entry, (filling_set_idle found rfl rfl).trans quiet⟩
  | abandon found =>
    exact ⟨entry, (filling_set_idle found (decide_eq_false (settled.apart found)) rfl).trans quiet⟩

/-- Whoever gets a settled key's value gets the one that is there. -/
theorem Settled.answers (settled : Settled memo key value) (step : Step yields memo after)
    (found : after.calls[index]? = some (.answered key answer)) :
    memo.calls[index]? = some (.answered key answer) ∨ answer = value := by
  cases step with
  | call other =>
    rw [List.getElem?_append] at found
    split at found
    · exact .inl found
    · cases List.mem_singleton.mp (List.mem_of_getElem? found)
  | hit _ present =>
    rcases answered_set found with old | ⟨⟨⟩⟩
    · exact .inl old
    · exact .inr (Option.some.inj (present.symm.trans settled.entry))
  | fill filling _ =>
    rcases answered_set found with old | ⟨⟨⟩⟩
    · exact .inl old
    · exact absurd rfl (settled.apart filling)
  | miss _ _ => exact .inl ((answered_set found).resolve_right fun same => by cases same)
  | leave _ => exact .inl ((answered_set found).resolve_right fun same => by cases same)
  | abandon _ => exact .inl ((answered_set found).resolve_right fun same => by cases same)

/-- And so over a whole run. -/
theorem Settled.run (settled : Settled memo key value) (run : Relation.ReflTransGen (Step yields) memo after) :
    Settled after key value ∧ ∀ (index : Nat) (answer : Value), after.calls[index]? = some (.answered key answer) →
      memo.calls[index]? = some (.answered key answer) ∨ answer = value := by
  induction run with
  | refl => exact ⟨settled, fun _ _ found => .inl found⟩
  | tail _ step ih =>
    refine ⟨ih.1.step step, ?_⟩
    intro index answer found
    rcases ih.1.answers step found with old | same
    · exact ih.2 index answer old
    · exact .inr same

end Settled

end Memo

end WotCrawler.Effect
