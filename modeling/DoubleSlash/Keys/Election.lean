import DoubleSlash.Lib.Least
import DoubleSlash.Lib.Text

/-!
# The elected keyer

`is_elected_keyer` and `elected_keyer_for` of the client's `room_session.rs`: which member of a room hands out the group key. Ids are
compared without their padding; the order of texts is that of their UTF-8 bytes, which is that of their characters.

## One keyer for every member

Both forms of the election pick the least identity. What they pick depends on the set of identities alone.
-/

namespace DoubleSlash.Keys

open Text Least

/-- `bare`. -/
def bare (id : String) : String := trimEndMatches '=' id

/-- `is_elected_keyer`. -/
def isElectedKeyer (members : List String) (me : String) : Bool :=
  members.any (fun m => bare m == bare me) && !members.any fun m => decide (bare m < bare me)

/-- `elected_keyer_for`. -/
def electedKeyerFor (members : List String) : Option String := leastBy (trimEndMatches '=') members

/-- The same identities, in any order, any number of times and in any spelling. -/
def SameMembers (members members' : List String) : Prop := ∀ id, id ∈ members.map bare ↔ id ∈ members'.map bare

namespace ElectionsAux

theorem sameMembers_symm {members members' : List String} (h : SameMembers members members') : SameMembers members' members :=
  fun id => (h id).symm

theorem ne_nil_of_sameMembers {members members' : List String} (h : SameMembers members members') (hne : members ≠ []) :
    members' ≠ [] := by
  rintro rfl
  obtain ⟨m, hm⟩ := List.exists_mem_of_ne_nil members hne
  cases (h (bare m)).mp (List.mem_map_of_mem hm)

/-- Someone is elected among some members. -/
theorem electedKeyerFor_isSome {members : List String} (hne : members ≠ []) : ∃ winner, electedKeyerFor members = some winner := by
  cases h : electedKeyerFor members with
  | none => exact absurd (leastBy_eq_none_iff.mp h) hne
  | some winner => exact ⟨winner, rfl⟩

/-- The two forms agree. -/
theorem isElectedKeyer_iff {members : List String} {winner : String} (h : electedKeyerFor members = some winner) (me : String) :
    isElectedKeyer members me = true ↔ bare me = bare winner := by
  obtain ⟨hmem, hle⟩ := leastBy_spec h
  simp only [isElectedKeyer, Bool.and_eq_true, List.any_eq_true, beq_iff_eq, Bool.not_eq_true', List.any_eq_false,
    decide_eq_true_eq, not_lt]
  constructor
  · rintro ⟨⟨m, hm, hme⟩, hleast⟩
    have hwinner : bare winner ≤ bare me := hme ▸ hle m hm
    exact le_antisymm (hleast winner hmem) hwinner
  · intro hme
    exact ⟨⟨winner, hmem, hme.symm⟩, fun m hm => hme ▸ hle m hm⟩

end ElectionsAux

open ElectionsAux

/-- **Every member elects the same keyer.** Among some members one of them is elected. `is_elected_keyer` holds of its identity and of
no other. And the identity is the same for every list of the same identities. -/
theorem one_keyer {members : List String} (hne : members ≠ []) :
    ∃ winner ∈ members, electedKeyerFor members = some winner ∧
      ∀ members', SameMembers members members' →
        (∃ winner' ∈ members', electedKeyerFor members' = some winner' ∧ bare winner' = bare winner) ∧
        ∀ me, isElectedKeyer members' me = true ↔ bare me = bare winner := by
  obtain ⟨winner, hwinner⟩ := electedKeyerFor_isSome hne
  refine ⟨winner, (leastBy_spec hwinner).1, hwinner, fun members' hsame => ?_⟩
  obtain ⟨winner', hwinner'⟩ := electedKeyerFor_isSome (ne_nil_of_sameMembers hsame hne)
  have hbare : bare winner' = bare winner := leastBy_key_congr (sameMembers_symm hsame) hwinner' hwinner
  refine ⟨⟨winner', (leastBy_spec hwinner').1, hwinner', hbare⟩, fun me => ?_⟩
  rw [isElectedKeyer_iff hwinner' me, hbare]

/-- Two members, one of them in two spellings. -/
theorem one_keyer_two : ∃ winner ∈ ["bob", "al="], electedKeyerFor ["bob", "al="] = some winner ∧
    ∀ members', SameMembers ["bob", "al="] members' →
      (∃ winner' ∈ members', electedKeyerFor members' = some winner' ∧ bare winner' = bare winner) ∧
      ∀ me, isElectedKeyer members' me = true ↔ bare me = bare winner :=
  one_keyer (List.cons_ne_nil "bob" ["al="])

end DoubleSlash.Keys
