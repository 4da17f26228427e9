import Mathlib.Tactic.Common
import SplitKeyboard.Table

/-!
Where the payloads of a table lie. Tables are built from an empty one by the operations of a half,
and in each of them every entry has its two payloads inside the arena, one behind the other. So
what is written to a payload is read back from it, and the other payload of the entry stays. An
operation that is refused is refused before it has changed anything.
-/
namespace SplitKeyboard

/-- Byte by byte: inside the spliced range the new bytes, elsewhere the old ones. -/
theorem getElem?_splice (memory bytes : List UInt8) (offset i : Nat) :
    (splice memory offset bytes)[i]? =
      if offset ≤ i ∧ i < offset + bytes.length ∧ i < memory.length then bytes[i - offset]?
      else memory[i]? := by
  simp only [splice, overlay, List.getElem?_append, List.length_take, List.length_drop,
    List.getElem?_take, List.getElem?_drop]
  by_cases outside : memory.length ≤ i
  · have nothing : memory[i]? = none := List.getElem?_eq_none outside
    grind
  · by_cases before : i < offset
    · grind
    · have start : min offset memory.length = offset := by omega
      rw [start]
      by_cases covered : i - offset < bytes.length
      · grind
      · have after : offset + (bytes.length + (i - offset - min (memory.length - offset)
            bytes.length)) = i := by omega
        rw [after]
        grind

/-- A window of a memory, byte by byte. -/
theorem getElem?_window (memory : List UInt8) (offset size i : Nat) :
    ((memory.drop offset).take size)[i]? = if i < size then memory[offset + i]? else none := by
  simp only [List.getElem?_take, List.getElem?_drop]

theorem length_window {memory : List UInt8} {offset size : Nat}
    (within : offset + size ≤ memory.length) : ((memory.drop offset).take size).length = size := by
  simp only [List.length_take, List.length_drop]
  omega

/-- A window that the new bytes fit into sees them at its front. -/
theorem window_splice_same {memory bytes : List UInt8} {offset size : Nat}
    (within : offset + size ≤ memory.length) (fits : bytes.length ≤ size) :
    ((splice memory offset bytes).drop offset).take size =
      overlay bytes ((memory.drop offset).take size) := by
  apply List.ext_getElem?
  intro i
  rw [getElem?_window, getElem?_splice]
  simp only [overlay, List.getElem?_append, List.length_take, List.getElem?_take,
    List.getElem?_drop, List.length_drop]
  grind

/-- A window apart from the new bytes sees none of them. -/
theorem window_splice_other {memory bytes : List UInt8} {offset from' size : Nat}
    (apart : from' + size ≤ offset ∨ offset + bytes.length ≤ from') :
    ((splice memory offset bytes).drop from').take size = (memory.drop from').take size := by
  apply List.ext_getElem?
  intro i
  rw [getElem?_window, getElem?_window, getElem?_splice]
  grind

namespace Table

variable {Handler : Type} {table table' : Table Handler} {id other : TransactionId}
  {entry : Descriptor Handler}

/-- The sizes registered for an ID: of its request and of its reply. -/
def sizes? (table : Table Handler) (id : TransactionId) : Option (Nat × Nat) :=
  (table.descriptor? id).map fun entry => (entry.requestSize, entry.replySize)

def handler? (table : Table Handler) (id : TransactionId) : Option Handler :=
  (table.descriptor? id).bind Descriptor.handler

theorem sizes?_eq_some {sizes : Nat × Nat} (known : table.sizes? id = some sizes) :
    ∃ entry, table.descriptor? id = some entry ∧ entry.requestSize = sizes.1 ∧
      entry.replySize = sizes.2 := by
  obtain ⟨entry, found, rfl⟩ := Option.map_eq_some_iff.mp known
  exact ⟨entry, found, rfl, rfl⟩

theorem descriptor?_put (table : Table Handler) (id other : TransactionId)
    (entry : Descriptor Handler) :
    (table.put id entry).descriptor? other =
      if other = id ∧ id.toNat < table.capacity then some entry else table.descriptor? other := by
  have same : id.toNat = other.toNat ↔ other = id := by
    rw [UInt8.toNat_inj, eq_comm]
  simp only [descriptor?, put, capacity, List.getElem?_set]
  grind

theorem lt_capacity_of_descriptor? (found : table.descriptor? id = some entry) :
    id.toNat < table.capacity := by
  by_contra beyond
  rw [descriptor?, List.getElem?_eq_none (by simpa [capacity] using beyond)] at found
  cases found

@[simp] theorem descriptor?_writeReply (table : Table Handler) (entry : Descriptor Handler)
    (bytes : List UInt8) (id : TransactionId) :
    (table.writeReply entry bytes).descriptor? id = table.descriptor? id := rfl

/-- A status is noted in its own entry, and nothing else of the entry changes. -/
theorem descriptor?_setStatus (table : Table Handler) (id other : TransactionId)
    (status : TransactionStatus) :
    (table.setStatus id status).descriptor? other =
      if other = id then (table.descriptor? id).map ({ · with status }) else
        table.descriptor? other := by
  unfold setStatus
  cases found : table.descriptor? id with
  | none => grind
  | some entry =>
    have valid := lt_capacity_of_descriptor? found
    simp only [descriptor?_put, valid, and_true, Option.map_some]

/-- A status leaves sizes and payloads alone. -/
theorem map_descriptor?_setStatus {β : Type} (view : Descriptor Handler → β)
    (blind : ∀ entry status, view { entry with status } = view entry) (table : Table Handler)
    (id other : TransactionId) (status : TransactionStatus) :
    ((table.setStatus id status).descriptor? other).map view =
      (table.descriptor? other).map view := by
  rw [descriptor?_setStatus]
  split
  · next same =>
    rw [same, Option.map_map]
    congr 1
    funext entry
    exact blind entry status
  · rfl

theorem arena_setStatus (table : Table Handler) (id : TransactionId) (status : TransactionStatus) :
    (table.setStatus id status).arena = table.arena := by
  unfold setStatus
  split <;> rfl

theorem sizes?_setStatus (table : Table Handler) (id other : TransactionId)
    (status : TransactionStatus) : (table.setStatus id status).sizes? other = table.sizes? other :=
  map_descriptor?_setStatus _ (fun _ _ => rfl) table id other status

theorem handler?_setStatus (table : Table Handler) (id other : TransactionId)
    (status : TransactionStatus) :
    (table.setStatus id status).handler? other = table.handler? other := by
  have alike := map_descriptor?_setStatus Descriptor.handler (fun _ _ => rfl) table id other status
  have join (entry : Option (Descriptor Handler)) :
      entry.bind Descriptor.handler = (entry.map Descriptor.handler).join := by
    cases entry <;> rfl
  rw [handler?, handler?, join, join, alike]

theorem request?_setStatus (table : Table Handler) (id other : TransactionId)
    (status : TransactionStatus) :
    (table.setStatus id status).request? other = table.request? other := by
  have same : (table.setStatus id status).requestOf = table.requestOf := by
    funext entry
    simp only [requestOf, arena_setStatus]
  rw [request?, same]
  exact map_descriptor?_setStatus _ (fun _ _ => rfl) table id other status

theorem reply?_setStatus (table : Table Handler) (id other : TransactionId)
    (status : TransactionStatus) :
    (table.setStatus id status).reply? other = table.reply? other := by
  have same : (table.setStatus id status).replyOf = table.replyOf := by
    funext entry
    simp only [replyOf, arena_setStatus]
  rw [reply?, same]
  exact map_descriptor?_setStatus _ (fun _ _ => rfl) table id other status

/-- The tables that the operations of a half can make out of an empty one. -/
inductive Built : Table Handler → Prop
  | empty {arenaSize : Nat} (capacity : Nat) (small : arenaSize < maxSize) :
      Built (.empty capacity arenaSize)
  | register {old new : Table Handler} {id requestSize replySize handler} (built : Built old)
      (done : old.register id requestSize replySize handler = .ok new) : Built new
  | setHandler {old new : Table Handler} {id handler} (built : Built old)
      (done : old.setHandler id handler = .ok new) : Built new
  | setStatus {old : Table Handler} (id status) (built : Built old) : Built (old.setStatus id status)
  | writeRequest {old : Table Handler} {id entry} (bytes) (built : Built old)
      (found : old.descriptor? id = some entry) : Built (old.writeRequest entry bytes)
  | writeReply {old : Table Handler} {id entry} (bytes) (built : Built old)
      (found : old.descriptor? id = some entry) : Built (old.writeReply entry bytes)

/-- Every entry ends inside the used part of an arena that is no longer than a size can tell. -/
structure Laid (table : Table Handler) : Prop where
  used_le : table.used ≤ table.arena.length
  arena_lt : table.arena.length < maxSize
  entry_le : ∀ id entry, table.descriptor? id = some entry →
    entry.offset + entry.requestSize + entry.replySize ≤ table.used

theorem descriptor?_empty (capacity arenaSize : Nat) (id : TransactionId) :
    (empty capacity arenaSize : Table Handler).descriptor? id = none := by
  simp only [descriptor?, empty, List.getElem?_replicate]
  split <;> rfl

namespace Change

variable {change : Change Handler Unit} {error : TableError}

/-- All errors of a change are raised before it changes anything. -/
def Cautious (change : Change Handler Unit) : Prop :=
  ∀ table error left, change.run table = .error error left → left = table

theorem run_eq_ok (done : change.outcome table = .ok table') :
    change.run table = .ok () table' := by
  unfold outcome at done
  cases ran : change.run table with
  | ok nothing left =>
    rw [ran] at done
    cases done
    rfl
  | error raised left =>
    rw [ran] at done
    cases done

theorem Cautious.run_eq_error (cautious : change.Cautious)
    (refused : change.outcome table = .error error) : change.run table = .error error table := by
  unfold outcome at refused
  cases ran : change.run table with
  | ok nothing left =>
    rw [ran] at refused
    cases refused
  | error raised left =>
    rw [ran] at refused
    cases refused
    rw [cautious table error left ran]

/-- A refused change leaves the table as it was. -/
theorem Cautious.after_eq (cautious : change.Cautious) (table : Table Handler) :
    change.after table = (change.outcome table).toOption.getD table := by
  unfold after outcome
  cases ran : change.run table with
  | ok done left => rfl
  | error raised left => exact cautious table raised left ran

end Change

theorem run_insert (table : Table Handler) (id : TransactionId) (requestSize replySize : Nat)
    (handler : Option Handler) :
    (insert id requestSize replySize handler).run table =
      match table.slots[id.toNat]? with
      | none => .error (.invalidId id) table
      | some (some _) => .error (.alreadyRegistered id) table
      | some none =>
        let requested := min (requestSize + replySize) maxSize
        let available := table.arena.length - table.used
        if available < requested then .error (.arenaExhausted requested available) table
        else .ok () { table.put id ⟨id, table.used, requestSize, replySize, .idle, handler⟩ with
          used := table.used + requested } := by
  simp only [insert, EStateM.run_bind, EStateM.run_get]
  cases table.slots[id.toNat]? with
  | none => rfl
  | some slot =>
    cases slot with
    | some entry => rfl
    | none =>
      simp only [EStateM.run_bind, EStateM.run_get]
      split
      · rfl
      · rfl

theorem run_attach (table : Table Handler) (id : TransactionId) (handler : Handler) :
    (attach id handler).run table =
      match table.resolve id with
      | .error error => .error error table
      | .ok entry => .ok () (table.put id { entry with handler := some handler }) := by
  simp only [attach, EStateM.run_bind, EStateM.run_get]
  cases table.resolve id with
  | error error => rfl
  | ok entry => rfl

theorem cautious_insert (id : TransactionId) (requestSize replySize : Nat)
    (handler : Option Handler) : (insert id requestSize replySize handler).Cautious := by
  intro table error left ran
  rw [run_insert] at ran
  split at ran
  · cases ran
    rfl
  · cases ran
    rfl
  · dsimp only at ran
    split at ran
    · cases ran
      rfl
    · cases ran

theorem cautious_attach (id : TransactionId) (handler : Handler) :
    (attach id handler).Cautious := by
  intro table error left ran
  rw [run_attach] at ran
  split at ran
  · cases ran
    rfl
  · cases ran

theorem setHandler_eq (table : Table Handler) (id : TransactionId) (handler : Handler) :
    table.setHandler id handler =
      (table.resolve id).map fun entry => table.put id { entry with handler := some handler } := by
  rw [setHandler, Change.outcome, run_attach]
  cases table.resolve id with
  | error error => rfl
  | ok entry => rfl

/-- A registration that succeeds puts one new entry behind the used arena. -/
theorem register_eq_ok {requestSize replySize : Nat} {handler : Option Handler}
    (done : table.register id requestSize replySize handler = .ok table') :
    id.toNat < table.capacity ∧ table.descriptor? id = none ∧
      min (requestSize + replySize) maxSize ≤ table.arena.length - table.used ∧
      table' = { table.put id ⟨id, table.used, requestSize, replySize, .idle, handler⟩ with
        used := table.used + min (requestSize + replySize) maxSize } := by
  have ran := Change.run_eq_ok done
  rw [run_insert] at ran
  cases slot : table.slots[id.toNat]? with
  | none => simp [slot] at ran
  | some kept =>
    cases kept with
    | some entry => simp [slot] at ran
    | none =>
      simp only [slot] at ran
      split at ran
      · cases ran
      · have valid : id.toNat < table.capacity := (List.getElem?_eq_some_iff.mp slot).choose
        cases ran
        exact ⟨valid, by simp [descriptor?, slot], by omega, rfl⟩

theorem Laid.register {requestSize replySize : Nat} {handler : Option Handler}
    (laid : table.Laid) (done : table.register id requestSize replySize handler = .ok table') :
    table'.Laid := by
  obtain ⟨valid, _, room, rfl⟩ := register_eq_ok done
  have used_le := laid.used_le
  have arena_lt := laid.arena_lt
  -- The sum is below the largest size, because it fits into an arena that is.
  have exact_sum : min (requestSize + replySize) maxSize = requestSize + replySize := by omega
  refine ⟨?_, laid.arena_lt, ?_⟩
  · simp only [put]
    omega
  · intro other entry found
    have placed : (table.put id ⟨id, table.used, requestSize, replySize, .idle,
        handler⟩).descriptor? other = some entry := found
    rw [descriptor?_put] at placed
    split at placed
    · cases placed
      simp only [exact_sum]
      omega
    · have old := laid.entry_le other entry placed
      show _ ≤ table.used + _
      omega

/-- Changing an entry in place, but for its sizes and its offset, keeps the layout. -/
theorem Laid.put {changed : Descriptor Handler} (laid : table.Laid)
    (found : table.descriptor? id = some entry) (offset : changed.offset = entry.offset)
    (requestSize : changed.requestSize = entry.requestSize)
    (replySize : changed.replySize = entry.replySize) : (table.put id changed).Laid := by
  refine ⟨laid.used_le, laid.arena_lt, ?_⟩
  intro other seen placed
  rw [descriptor?_put] at placed
  split at placed
  · cases placed
    rw [offset, requestSize, replySize]
    exact laid.entry_le id entry found
  · exact laid.entry_le other seen placed

theorem Laid.setStatus (laid : table.Laid) (id : TransactionId) (status : TransactionStatus) :
    (table.setStatus id status).Laid := by
  unfold Table.setStatus
  split
  · next entry found => exact laid.put found rfl rfl rfl
  · exact laid

theorem resolve_eq_ok_iff : table.resolve id = .ok entry ↔ table.descriptor? id = some entry := by
  unfold resolve descriptor?
  cases table.slots[id.toNat]? with
  | none => simp
  | some kept => cases kept <;> simp

/-- Without an entry, an ID is either outside the table or not registered in it. -/
theorem resolve_eq_error (unknown : table.descriptor? id = none) :
    table.resolve id =
      .error (if table.capacity ≤ id.toNat then .invalidId id else .notRegistered id) := by
  unfold descriptor? at unknown
  unfold resolve capacity
  cases slot : table.slots[id.toNat]? with
  | none => rw [if_pos (List.getElem?_eq_none_iff.mp slot)]
  | some kept =>
    rw [if_neg (Nat.not_le_of_lt (List.getElem?_eq_some_iff.mp slot).1)]
    cases kept with
    | none => rfl
    | some entry =>
      rw [slot] at unknown
      cases unknown

theorem setHandler_eq_ok {handler : Handler} (done : table.setHandler id handler = .ok table') :
    ∃ entry, table.descriptor? id = some entry ∧
      table' = table.put id { entry with handler := some handler } := by
  rw [setHandler_eq] at done
  cases found : table.resolve id with
  | error error => simp [found, Except.map] at done
  | ok entry =>
    simp only [found, Except.map, Except.ok.injEq] at done
    exact ⟨entry, resolve_eq_ok_iff.mp found, done.symm⟩

theorem Laid.setHandler {handler : Handler} (laid : table.Laid)
    (done : table.setHandler id handler = .ok table') : table'.Laid := by
  obtain ⟨entry, found, rfl⟩ := setHandler_eq_ok done
  exact laid.put found rfl rfl rfl

theorem Built.laid (built : table.Built) : table.Laid := by
  induction built with
  | empty capacity small =>
    refine ⟨by simp [Table.empty], by simpa [Table.empty] using small, ?_⟩
    intro id entry found
    rw [descriptor?_empty] at found
    cases found
  | register _ done laid => exact laid.register done
  | setHandler _ done laid => exact laid.setHandler done
  | setStatus id status _ laid => exact laid.setStatus id status
  | writeRequest bytes _ _ laid =>
    exact ⟨by simpa [Table.writeRequest, length_splice] using laid.used_le,
      by simpa [Table.writeRequest, length_splice] using laid.arena_lt, laid.entry_le⟩
  | writeReply bytes _ _ laid =>
    exact ⟨by simpa [Table.writeReply, length_splice] using laid.used_le,
      by simpa [Table.writeReply, length_splice] using laid.arena_lt, laid.entry_le⟩

def single (handler : Option Handler) : Table Handler :=
  ⟨[none, some ⟨1, 0, 1, 1, .idle, handler⟩], [0, 0], 2⟩

theorem single_built (handler : Option Handler) : (single handler).Built := by
  have nothing : (empty 2 2 : Table Handler).Built := .empty 2 (by decide)
  have registered : (empty 2 2).register 1 1 1 handler = .ok (single handler) := rfl
  exact .register nothing registered

theorem sizes?_single (handler : Option Handler) (id : TransactionId) :
    (single handler).sizes? id = if id.toNat = 1 then some (1, 1) else none := by
  unfold sizes? descriptor? single
  match id.toNat with
  | 0 => rfl
  | 1 => rfl
  | more + 2 => rfl

section Payloads

variable (built : table.Built) (found : table.descriptor? id = some entry)
include built found

theorem Built.entry_le :
    entry.offset + entry.requestSize + entry.replySize ≤ table.arena.length :=
  Nat.le_trans (built.laid.entry_le id entry found) built.laid.used_le

theorem Built.length_requestOf : (table.requestOf entry).length = entry.requestSize :=
  length_window (by have := built.entry_le found; omega)

theorem Built.length_replyOf : (table.replyOf entry).length = entry.replySize :=
  length_window (by have := built.entry_le found; simp only [Descriptor.replyOffset]; omega)

theorem Built.requestOf_writeRequest {bytes : List UInt8}
    (full : bytes.length = entry.requestSize) :
    (table.writeRequest entry bytes).requestOf entry = bytes := by
  have within := built.entry_le found
  have taken : bytes.take entry.requestSize = bytes := List.take_of_length_le (Nat.le_of_eq full)
  rw [requestOf, Table.writeRequest, taken, window_splice_same (by omega) (Nat.le_of_eq full)]
  exact overlay_of_length_eq (full.trans (built.length_requestOf found).symm)

/-- What is written over a reply is read back, with the rest of the old reply behind it. -/
theorem Built.replyOf_writeReply {bytes : List UInt8} :
    (table.writeReply entry bytes).replyOf entry =
      overlay (bytes.take entry.replySize) (table.replyOf entry) := by
  have within := built.entry_le found
  rw [replyOf, Table.writeReply, window_splice_same (by simp only [Descriptor.replyOffset]; omega)
    (List.length_take_le _ _)]
  rfl

omit built found in
theorem requestOf_writeReply (table : Table Handler) (entry : Descriptor Handler)
    (bytes : List UInt8) : (table.writeReply entry bytes).requestOf entry = table.requestOf entry :=
  window_splice_other (.inl (Nat.le_refl _))

omit built found in
theorem replyOf_writeRequest (table : Table Handler) (entry : Descriptor Handler)
    (bytes : List UInt8) : (table.writeRequest entry bytes).replyOf entry = table.replyOf entry := by
  refine window_splice_other (.inr ?_)
  have := List.length_take_le entry.requestSize bytes
  simp only [Descriptor.replyOffset]
  omega

/-- A reply written in full is all that the table then holds of the reply. -/
theorem Built.reply?_writeReply {bytes : List UInt8} (full : bytes.length = entry.replySize) :
    (table.writeReply entry bytes).reply? id = some bytes := by
  have fits := full.trans (built.length_replyOf found).symm
  rw [reply?, descriptor?_writeReply, found, Option.map_some, built.replyOf_writeReply found,
    List.take_of_length_le (Nat.le_of_eq full), overlay_of_length_eq fits]

omit built in
theorem request?_writeReply (bytes : List UInt8) :
    (table.writeReply entry bytes).request? id = some (table.requestOf entry) := by
  rw [request?, descriptor?_writeReply, found, Option.map_some, requestOf_writeReply]

end Payloads

/-- A table that is laid out for transactions of these sizes. -/
structure Fits (sizes : TransactionId → Option (Nat × Nat)) (table : Table Handler) : Prop where
  built : table.Built
  sizes : ∀ id, table.sizes? id = sizes id

section Fits

variable {sizes : TransactionId → Option (Nat × Nat)} (fits : table.Fits sizes)
include fits

theorem Fits.setStatus (id : TransactionId) (status : TransactionStatus) :
    (table.setStatus id status).Fits sizes :=
  ⟨.setStatus id status fits.built, fun other => (sizes?_setStatus table id other status).trans
    (fits.sizes other)⟩

variable (found : table.descriptor? id = some entry)
include found

theorem Fits.writeRequest (bytes : List UInt8) : (table.writeRequest entry bytes).Fits sizes :=
  ⟨.writeRequest bytes fits.built found, fits.sizes⟩

theorem Fits.writeReply (bytes : List UInt8) : (table.writeReply entry bytes).Fits sizes :=
  ⟨.writeReply bytes fits.built found, fits.sizes⟩

end Fits

end Table
end SplitKeyboard
