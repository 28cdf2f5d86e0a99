import DoubleSlash.Lemmas.SenderStates

/-!
# A stream of frames

The frames of one sender arrive whole, one after another, among the calls of others. Between two of them nothing of the sender is
partial (`bare`); `run_delivery` takes one frame from its first fragment to its last.
-/

namespace DoubleSlash.Video

open Assoc SenderState

/-- The instant of a call. -/
def Op.now : Op → Nat
  | .push _ _ now => now
  | .evictExpired now => now
  | .clear => 0

/-- The call forgets nothing and pushes no fragment of this sender. -/
structure Op.Foreign (sender : String) (op : Op) : Prop where
  keeps : op ≠ .clear
  other : ∀ order buf now hdr chunk, op = .push order buf now → parseFragment buf = some (hdr, chunk) → hdr.sender ≠ sender

/-- The reassembler after some more calls. -/
def Reassembler.afterCalls (r : Reassembler) (ops : List Op) : Reassembler := ops.foldl (fun r op => (r.step op).1) r

/-- One of the calls returns the frame. -/
def Reassembler.ReturnsIn (r : Reassembler) (ops : List Op) (frame : ReassembledFrame) : Prop :=
  ∃ pre op post, ops = pre ++ op :: post ∧ ((r.afterCalls pre).step op).2 = some frame

/-- These fragments of the frame arrive, each once and in any order, among the calls of others and within the timeout of the frame. -/
def Split.Delivery (F : Split) (start : Nat) : List Nat → List Op → Prop
  | idxs, [] => idxs = []
  | idxs, op :: rest => op.now < start + partialTimeout F.count ∧
      (op.Foreign F.sender ∧ F.Delivery start idxs rest ∨
        ∃ order now, ∃ i ∈ idxs, op = .push order (F.bytes i) now ∧ F.Delivery start (idxs.erase i) rest)

/-- The frame arrives complete, from this instant on. -/
def Split.Arriving (F : Split) (start : Nat) (ops : List Op) : Prop :=
  ∃ order i rest, i < F.count ∧ ops = .push order (F.bytes i) start :: rest ∧ F.Delivery start ((List.range F.count).erase i) rest

namespace SenderState

/-- A sender with nothing partial. -/
def bare (last : Option UInt32) : SenderState := ⟨∅, 0, last⟩

theorem dropExpired_bare (last : Option UInt32) (now : Nat) : (bare last).dropExpired now = bare last := rfl

theorem eq_bare {s : SenderState} (hs : s.Sound) (h : ∀ seq, s.partials.lookup seq = none) : s = bare s.lastCompleted := by
  have hempty : s.partials = ∅ := by
    refine AList.ext ?_
    rw [AList.empty_entries]
    refine List.eq_nil_iff_forall_not_mem.mpr fun e he => ?_
    have hlook : s.partials.lookup e.1 = some e.2 := mem_entries_iff.mp he
    rw [h] at hlook
    cases hlook
  have hbytes : s.bytes = 0 := by rw [hs.bytes, hempty, total_empty]
  cases s
  simp only at hempty hbytes
  rw [bare, hempty, hbytes]

/-- What is left when everything has expired. -/
theorem dropExpired_all {s : SenderState} (hs : s.Sound) {now : Nat}
    (h : ∀ seq p, s.partials.lookup seq = some p → partialTimeout p.chunks.length ≤ now - p.firstSeen) :
    s.dropExpired now = bare s.lastCompleted := by
  have hgone : ∀ seq, (s.dropExpired now).partials.lookup seq = none := by
    intro seq
    cases hlook : (s.dropExpired now).partials.lookup seq with
    | none => rfl
    | some p =>
      have hp := shrinks_dropExpired s now seq p hlook
      have hmem : seq ∈ (s.partials.entries.filter fun e => partialTimeout e.2.chunks.length ≤ now - e.2.firstSeen).map Sigma.fst := by
        refine List.mem_map.mpr ⟨⟨seq, p⟩, List.mem_filter.mpr ⟨mem_entries_iff.mpr hp, ?_⟩, rfl⟩
        exact decide_eq_true (h seq p hp)
      exact absurd hlook (lookup_dropPartials_of_mem hmem)
  rw [eq_bare (sound_dropExpired hs now) hgone, lastCompleted_dropExpired]

end SenderState

namespace Split

variable {F : Split} {r : Reassembler} {last : Option UInt32} {t now i : Nat} {got : List Nat} {order : IterOrder}

/-! ### One fragment -/

theorem found_held (order : IterOrder) (i now : Nat) : (F.heldState last t got).found order (F.header i) now = F.heldState last t got := by
  have hlook : (F.heldState last t got).partials.lookup (F.header i).frameSeq = some (F.part t got) := partials_lookup t got
  have hroom : (F.heldState last t got).makeRoom order (F.header i).frameSeq = F.heldState last t got := by
    rw [makeRoom, hlook, if_neg (by simp)]
  rw [SenderState.found, hroom, openPartial, hlook]

theorem found_bare (order : IterOrder) (i now : Nat) : (bare last).found order (F.header i) now = F.heldState last now [] := by
  have hroom : (bare last).makeRoom order (F.header i).frameSeq = bare last := by
    rw [makeRoom, if_neg]
    rintro ⟨-, hfull⟩
    cases hfull
  have hchunks : List.replicate F.count (none : Option (List UInt8)) = (F.part now []).chunks := by
    simp [part]
  rw [SenderState.found, hroom]
  unfold openPartial bare
  simp only [AList.lookup_empty, header, hchunks]
  rfl

/-- A fragment that is not there yet is stored with the others. -/
theorem accept_held {s s₁ : SenderState} (hscreen : s.screen (F.header i) = some s₁)
    (hfound : s₁.found order (F.header i) now = F.heldState last t got) (h : F.Arrived (i :: got)) :
    s.accept order (F.header i) (F.chunk i) now = (F.heldState last t got).store (F.header i) (F.chunk i) := by
  have hi : i < F.count := h.lt i List.mem_cons_self
  have hnew : i ∉ got := (List.nodup_cons.mp h.nodup).1
  have hlook : (F.heldState last t got).partials.lookup (F.header i).frameSeq = some (F.part t got) := partials_lookup t got
  have hjoins : Joins (F.part t got) (F.header i) := by
    refine ⟨?_, rfl, rfl, ?_⟩
    · simp [part, header]
    · show ((F.part t got).chunks[i]?.join).isSome = false
      rw [part_slot t got hi, if_neg hnew]
      rfl
  have hbytes := h.bytes_le
  rw [List.flatMap_cons, List.length_append] at hbytes
  have hheld : (F.heldState last t got).bytes = (got.flatMap F.chunk).length := rfl
  have hshed : shed order (F.chunk i).length (F.heldState last t got).partials.entries.length (F.heldState last t got) =
      F.heldState last t got := by
    have hentries : (F.heldState last t got).partials.entries = [⟨F.frameSeq, F.part t got⟩] := partials_entries t got
    rw [hentries, List.length_singleton, shed, if_neg]
    rintro ⟨hover, -⟩
    omega
  obtain ⟨p, hp, ⟨hnot, -⟩ | ⟨-, heq⟩⟩ := accept_of_screen hscreen order (F.chunk i) now
  · rw [hfound, hlook] at hp
    obtain rfl := Option.some.inj hp
    exact absurd hjoins hnot
  · rw [heq, hfound, filed, hshed, if_neg (by omega)]

/-- The fragment is filed, or it is the last one. -/
theorem accept_cases {s s₁ : SenderState} (hscreen : s.screen (F.header i) = some s₁)
    (hfound : s₁.found order (F.header i) now = F.heldState last t got) (h : F.Arrived (i :: got)) :
    ((i :: got).length < F.count ∧
        s.accept order (F.header i) (F.chunk i) now = (F.heldState last t (i :: got), none)) ∨
      ((i :: got).length = F.count ∧
        s.accept order (F.header i) (F.chunk i) now = (bare (newest last F.frameSeq), some F.frame)) := by
  have hi : i < F.count := h.lt i List.mem_cons_self
  have hnew : i ∉ got := (List.nodup_cons.mp h.nodup).1
  rw [accept_held hscreen hfound h]
  by_cases hmore : (i :: got).length < F.count
  · exact Or.inl ⟨hmore, store_more last hnew hi hmore⟩
  · have hlen : (i :: got).length = F.count := Nat.le_antisymm h.length_le (Nat.le_of_not_lt hmore)
    exact Or.inr ⟨hlen, store_last last h hlen hnew hi⟩

/-- The number of the frame passes the check. -/
def Open (last : Option UInt32) (seq : UInt32) : Prop := ∀ l, last = some l → Passes l seq

theorem screen_open {s : SenderState} {hdr : FragmentHeader} (h : Open s.lastCompleted hdr.frameSeq) : s.screen hdr = some s := by
  cases hlast : s.lastCompleted with
  | none => exact screen_of_none hlast hdr
  | some l => exact screen_of_passes hlast (h l hlast)

theorem newest_isSome (last : Option UInt32) (seq : UInt32) : ∃ l, newest last seq = some l := by
  unfold newest
  cases last with
  | none => exact ⟨seq, rfl⟩
  | some l =>
    split
    · exact ⟨seq, rfl⟩
    · exact ⟨l, rfl⟩

/-! ### Calls of others -/

theorem afterCalls_nil (r : Reassembler) : r.afterCalls [] = r := rfl

theorem afterCalls_cons (r : Reassembler) (op : Op) (ops : List Op) : r.afterCalls (op :: ops) = (r.step op).1.afterCalls ops := rfl

theorem returnsIn_cons {op : Op} {ops : List Op} {frame : ReassembledFrame} (h : (r.step op).1.ReturnsIn ops frame) :
    r.ReturnsIn (op :: ops) frame := by
  obtain ⟨pre, op', post, heq, hframe⟩ := h
  exact ⟨op :: pre, op', post, congrArg _ heq, hframe⟩

theorem returnsIn_head {op : Op} {ops : List Op} {frame : ReassembledFrame} (h : (r.step op).2 = some frame) :
    r.ReturnsIn (op :: ops) frame :=
  ⟨[], op, ops, rfl, h⟩

theorem afterCalls_append (r : Reassembler) (ops ops' : List Op) : r.afterCalls (ops ++ ops') = (r.afterCalls ops).afterCalls ops' :=
  List.foldl_append ..

theorem sound_afterCalls {r : Reassembler} (hr : r.Sound) (ops : List Op) : (r.afterCalls ops).Sound := by
  induction ops generalizing r with
  | nil => exact hr
  | cons op ops ih => exact ih (Reassembler.sound_step hr op)

/-- A call of others leaves the sender alone, or drops what has expired of it. -/
theorem lookup_foreign {sender : String} {op : Op} (hop : op.Foreign sender) :
    (r.step op).1.senders.lookup sender = r.senders.lookup sender ∨
      (r.step op).1.senders.lookup sender = (r.evictExpired op.now).senders.lookup sender := by
  cases op with
  | clear => exact absurd rfl hop.keeps
  | evictExpired now => exact Or.inr rfl
  | push order buf now =>
    rcases Reassembler.push_cases r order buf now with ⟨-, hstate | hstate⟩ | ⟨hdr, chunk, hparse, heq⟩
    · exact Or.inl (by rw [Reassembler.step, hstate])
    · exact Or.inr (by rw [Reassembler.step, hstate, Op.now])
    · right
      rw [Reassembler.step, heq]
      exact AList.lookup_insert_ne (Ne.symm (hop.other order buf now hdr chunk rfl hparse))

theorem lookup_evict_stable {sender : String} {s : SenderState} (hs : r.senders.lookup sender = some s)
    (hkept : s.dropExpired now = s) (htracked : s.tracked = true) : (r.evictExpired now).senders.lookup sender = some s := by
  rw [Reassembler.evictExpired, lookup_retain, lookup_mapValues, hs, Option.map_some, hkept, Option.filter_some, if_pos htracked]

theorem lookup_foreign_stable {sender : String} {op : Op} (hop : op.Foreign sender) {s : SenderState}
    (hs : r.senders.lookup sender = some s) (hkept : s.dropExpired op.now = s) (htracked : s.tracked = true) :
    (r.step op).1.senders.lookup sender = some s := by
  rcases lookup_foreign (r := r) hop with heq | heq
  · rw [heq, hs]
  · rw [heq, lookup_evict_stable hs hkept htracked]

/-- A sender with a history and nothing partial stays as it is. -/
theorem lookup_foreigns_bare {sender : String} {ops : List Op} (hops : ∀ op ∈ ops, op.Foreign sender) {l : UInt32}
    (hs : r.senders.lookup sender = some (bare (some l))) : (r.afterCalls ops).senders.lookup sender = some (bare (some l)) := by
  induction ops generalizing r with
  | nil => exact hs
  | cons op ops ih =>
    refine ih (fun op' hop' => hops op' (List.mem_cons_of_mem op hop')) ?_
    exact lookup_foreign_stable (hops op List.mem_cons_self) hs (dropExpired_bare _ _) rfl

/-! ### The calls of a frame -/

theorem partialTimeout_pos (count : Nat) : 0 < partialTimeout count :=
  Nat.lt_of_lt_of_le (by decide) (Nat.le_max_left partialTimeoutFlat _)

theorem dropExpired_held (hnow : now < t + partialTimeout F.count) :
    (F.heldState last t got).dropExpired now = F.heldState last t got := by
  have hentries : (F.heldState last t got).partials.entries = [⟨F.frameSeq, F.part t got⟩] := partials_entries t got
  have hlength : (F.part t got).chunks.length = F.count := by simp [part]
  have hfilter : [(⟨F.frameSeq, F.part t got⟩ : (_ : UInt32) × PartialFrame)].filter
      (fun e => partialTimeout e.2.chunks.length ≤ now - e.2.firstSeen) = [] := by
    have hfirst : (F.part t got).firstSeen = t := rfl
    have hpos := partialTimeout_pos F.count
    have hwaiting : ¬partialTimeout F.count ≤ now - t := by omega
    rw [List.filter_singleton, hlength, hfirst, decide_eq_false hwaiting]
    rfl
  rw [dropExpired, hentries, hfilter]
  rfl

theorem tracked_held : (F.heldState last t got).tracked = true := by
  have hentries : (F.heldState last t got).partials.entries = [⟨F.frameSeq, F.part t got⟩] := partials_entries t got
  rw [tracked, hentries]
  rfl

/-- The fragment of a tracked sender reaches its state. -/
theorem push_own {s : SenderState} (hs : (r.evictExpired now).senders.lookup F.sender = some s) (order : IterOrder)
    (hi : i < F.count) :
    r.push order (F.bytes i) now = (⟨(r.evictExpired now).senders.insert F.sender (s.accept order (F.header i) (F.chunk i) now).1⟩,
      (s.accept order (F.header i) (F.chunk i) now).2) := by
  have hsender : (F.header i).sender = F.sender := rfl
  unfold Reassembler.push
  simp only [F.parse_bytes hi]
  rw [hsender, if_neg]
  · rw [hs]
    rfl
  · rw [hs]
    exact fun h => Bool.false_ne_true h.1

/-- The fragment of a sender that is not tracked reaches a new state, when there is room for it. -/
theorem push_new (hs : (r.evictExpired now).senders.lookup F.sender = none)
    (hroom : (r.evictExpired now).senders.entries.length < maxSenders) (order : IterOrder) (hi : i < F.count) :
    r.push order (F.bytes i) now =
      (⟨(r.evictExpired now).senders.insert F.sender ((bare none).accept order (F.header i) (F.chunk i) now).1⟩,
        ((bare none).accept order (F.header i) (F.chunk i) now).2) := by
  have hsender : (F.header i).sender = F.sender := rfl
  unfold Reassembler.push
  simp only [F.parse_bytes hi]
  rw [hsender, if_neg (fun h => Nat.not_le_of_lt hroom h.2), hs]
  rfl

theorem foreign_of_delivery {ops : List Op} (h : F.Delivery t [] ops) : ∀ op ∈ ops, op.Foreign F.sender := by
  induction ops with
  | nil => exact fun op hop => absurd hop List.not_mem_nil
  | cons op rest ih =>
    obtain ⟨-, ⟨hforeign, hrest⟩ | ⟨order, now, i, hi, -, -⟩⟩ := h
    · intro op' hop'
      rcases List.mem_cons.mp hop' with rfl | hop'
      · exact hforeign
      · exact ih hrest op' hop'
    · cases hi

/-- **From some fragments of a frame to all of them.** The last one returns the frame, and nothing of it is left. -/
theorem run_delivery {idxs : List Nat} {ops : List Op} (hs : r.senders.lookup F.sender = some (F.heldState last t got))
    (hopen : Open last F.frameSeq) (hperm : (got ++ idxs).Perm (List.range F.count)) (hmore : got.length < F.count)
    (hops : F.Delivery t idxs ops) :
    r.ReturnsIn ops F.frame ∧ (r.afterCalls ops).senders.lookup F.sender = some (bare (newest last F.frameSeq)) := by
  induction ops generalizing r got idxs with
  | nil =>
    obtain rfl : idxs = [] := hops
    rw [List.append_nil] at hperm
    rw [hperm.length_eq, List.length_range] at hmore
    exact absurd hmore (Nat.lt_irrefl _)
  | cons op rest ih =>
    rw [afterCalls_cons]
    obtain ⟨hnow, ⟨hforeign, hrest⟩ | ⟨order, now, i, hi, rfl, hrest⟩⟩ := hops
    · have hnext := lookup_foreign_stable hforeign hs (dropExpired_held hnow) tracked_held
      obtain ⟨hreturns, hlast⟩ := ih hnext hperm hmore hrest
      exact ⟨returnsIn_cons hreturns, hlast⟩
    · have hperm' : (i :: got ++ idxs.erase i).Perm (List.range F.count) := by
        refine List.Perm.trans ?_ hperm
        rw [List.cons_append]
        exact (List.perm_middle.symm).trans (List.Perm.append_left got (List.perm_cons_erase hi).symm)
      have harrived : F.Arrived (i :: got) := by
        have hnodup := hperm'.nodup_iff.mpr List.nodup_range
        refine ⟨(List.nodup_append.mp hnodup).1, fun j hj => ?_⟩
        exact List.mem_range.mp (hperm'.mem_iff.mp (List.mem_append_left _ hj))
      have hevicted : (r.evictExpired now).senders.lookup F.sender = some (F.heldState last t got) :=
        lookup_evict_stable hs (dropExpired_held hnow) tracked_held
      have hpush := push_own hevicted order (harrived.lt i List.mem_cons_self)
      have hscreen : (F.heldState last t got).screen (F.header i) = some (F.heldState last t got) := screen_open hopen
      rcases accept_cases hscreen (found_held order i now) harrived with ⟨hmore', heq⟩ | ⟨hlen, heq⟩
      · rw [heq] at hpush
        have hnext : ((r.step (.push order (F.bytes i) now)).1).senders.lookup F.sender = some (F.heldState last t (i :: got)) := by
          rw [Reassembler.step, hpush]
          exact AList.lookup_insert _
        obtain ⟨hreturns, hlast⟩ := ih hnext hperm' hmore' hrest
        exact ⟨returnsIn_cons hreturns, hlast⟩
      · rw [heq] at hpush
        have hnone : idxs.erase i = [] := by
          have hlength := hperm'.length_eq
          rw [List.length_append, hlen, List.length_range] at hlength
          exact List.length_eq_zero_iff.mp (by omega)
        have hbare : ((r.step (.push order (F.bytes i) now)).1).senders.lookup F.sender =
            some (bare (newest last F.frameSeq)) := by
          rw [Reassembler.step, hpush]
          exact AList.lookup_insert _
        have hframe : (r.step (.push order (F.bytes i) now)).2 = some F.frame := by
          rw [Reassembler.step, hpush]
        refine ⟨returnsIn_head hframe, ?_⟩
        obtain ⟨l, hl⟩ := newest_isSome last F.frameSeq
        rw [hl] at hbare ⊢
        rw [hnone] at hrest
        exact lookup_foreigns_bare (foreign_of_delivery hrest) hbare

end Split

end DoubleSlash.Video
