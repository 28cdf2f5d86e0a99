import DoubleSlash.Lib.Assoc

/-!
# The replay guard

`ReplayGuard` of `doubleslash-features/src/replay.rs`: for each sender the signatures accepted within the window. Times are in
seconds.
-/

namespace DoubleSlash.Protocol

open Assoc

/-- `DEFAULT_REPLAY_WINDOW_SECS`. -/
def replayWindowSecs : Nat := 300

/-- `MAX_ENTRIES_PER_SENDER`. -/
def maxEntriesPerSender : Nat := 16384

/-- `sig_key`: the first sixteen bytes, filled up with zeros. -/
def sigKey (signature : List UInt8) : List UInt8 :=
  signature.take 16 ++ List.replicate (16 - signature.length) 0

/-- The signatures seen, each with the time it was first seen. -/
abbrev SenderWindow := HashMap (List UInt8) Nat

/-- The guard: a window for each sender. -/
abbrev ReplayGuard := HashMap String SenderWindow

/-- `check_and_record_at`: the guard afterwards, and whether the signature is new. -/
def ReplayGuard.checkAndRecord (g : ReplayGuard) (sender : String) (signature : List UInt8) (now : Nat) :
    ReplayGuard × Bool :=
  if signature.isEmpty then (g, false)
  else
    let key := sigKey signature
    let win : SenderWindow := (g.lookup sender).getD ∅
    let seen := retain win fun _ firstSeen => decide (now - firstSeen ≤ replayWindowSecs)
    if (seen.lookup key).isSome then (g.insert sender seen, false)
    else if maxEntriesPerSender ≤ seen.entries.length then (g.insert sender seen, false)
    else (g.insert sender (seen.insert key now), true)

/-! ## Other clocks -/

section

variable {T : Type} (live : T → T → Bool)

/-- `check_and_record_at` on any clock: `live now firstSeen` is what a record is kept by. -/
def recordSignature (g : HashMap String (HashMap (List UInt8) T)) (sender : String) (signature : List UInt8) (now : T) :
    HashMap String (HashMap (List UInt8) T) × Bool :=
  if signature.isEmpty then (g, false)
  else
    let key := sigKey signature
    let seen := retain ((g.lookup sender).getD ∅) fun _ firstSeen => live now firstSeen
    if (seen.lookup key).isSome then (g.insert sender seen, false)
    else if maxEntriesPerSender ≤ seen.entries.length then (g.insert sender seen, false)
    else (g.insert sender (seen.insert key now), true)

/-- The guard on a clock of whole seconds. -/
theorem checkAndRecord_eq (g : ReplayGuard) (sender : String) (signature : List UInt8) (now : Nat) :
    g.checkAndRecord sender signature now =
      recordSignature (fun now firstSeen => decide (now - firstSeen ≤ replayWindowSecs)) g sender signature now := rfl

variable {live} {g : HashMap String (HashMap (List UInt8) T)} {sender : String} {signature : List UInt8} {now t : T}

/-- The guard holds a record of the key for the sender. -/
def Recorded (g : HashMap String (HashMap (List UInt8) T)) (sender : String) (key : List UInt8) (t : T) : Prop :=
  ∃ win, g.lookup sender = some win ∧ win.lookup key = some t

/-- A signature with a live record is refused. -/
theorem recordSignature_refuses (h : Recorded g sender (sigKey signature) t) (hlive : live now t = true) :
    (recordSignature live g sender signature now).2 = false := by
  obtain ⟨win, hwin, ht⟩ := h
  unfold recordSignature
  split_ifs with hempty
  · rfl
  · dsimp only
    rw [hwin, Option.getD_some, lookup_retain, ht, Option.filter_some, if_pos hlive]
    rfl

/-- What is taken as new is recorded. -/
theorem recordSignature_records (h : (recordSignature live g sender signature now).2 = true) :
    Recorded (recordSignature live g sender signature now).1 sender (sigKey signature) now := by
  revert h
  unfold recordSignature
  dsimp only
  split_ifs
  · intro h
    cases h
  · intro h
    cases h
  · intro h
    cases h
  · exact fun _ => ⟨_, AList.lookup_insert _, AList.lookup_insert _⟩

/-- A live record stays. -/
theorem recordSignature_keeps {sender' : String} {key : List UInt8} (h : Recorded g sender' key t) (hlive : live now t = true) :
    Recorded (recordSignature live g sender signature now).1 sender' key t := by
  obtain ⟨win, hwin, ht⟩ := h
  by_cases hsender : sender' = sender
  · subst hsender
    have hseen : (retain ((g.lookup sender').getD ∅) fun _ firstSeen => live now firstSeen).lookup key = some t := by
      rw [hwin, Option.getD_some, lookup_retain, ht, Option.filter_some, if_pos hlive]
    unfold recordSignature
    dsimp only
    split_ifs with hempty hsome
    · exact ⟨win, hwin, ht⟩
    · exact ⟨_, AList.lookup_insert _, hseen⟩
    · exact ⟨_, AList.lookup_insert _, hseen⟩
    · refine ⟨_, AList.lookup_insert _, ?_⟩
      have hkey : key ≠ sigKey signature := by
        rintro rfl
        rw [hseen] at hsome
        exact hsome rfl
      rw [AList.lookup_insert_ne hkey]
      exact hseen
  · refine ⟨win, ?_, ht⟩
    unfold recordSignature
    dsimp only
    split_ifs
    · exact hwin
    · exact (AList.lookup_insert_ne hsender).trans hwin
    · exact (AList.lookup_insert_ne hsender).trans hwin
    · exact (AList.lookup_insert_ne hsender).trans hwin

end

end DoubleSlash.Protocol
