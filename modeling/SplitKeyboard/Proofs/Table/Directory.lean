import Mathlib.Algebra.BigOperators.Group.Finset.Piecewise
import Mathlib.Data.FinEnum
import Mathlib.Order.Interval.Finset.Nat
import SplitKeyboard.Proofs.Table.Layout
import SplitKeyboard.Target

/-!
A table as a map. All payloads of a table share one arena, yet it can be used as a directory that
gives each ID a request, a reply, a status and a handler of its own. Entries are packed one behind
the other and never overlap, the arena behind them is blank, and so every edit of the table is the
edit of one listing of the directory.
-/
namespace SplitKeyboard

inductive Side where
  | request
  | reply
  deriving DecidableEq

variable {Handler : Type}

namespace Descriptor

/-- Where a payload begins in the arena. -/
def start (entry : Descriptor Handler) : Side → Nat
  | .request => entry.offset
  | .reply => entry.replyOffset

def size (entry : Descriptor Handler) : Side → Nat
  | .request => entry.requestSize
  | .reply => entry.replySize

/-- The places of a payload in the arena. -/
def places (entry : Descriptor Handler) (side : Side) : Finset Nat :=
  Finset.Ico (entry.start side) (entry.start side + entry.size side)

/-- The room that an entry takes: its two payloads. -/
def span (entry : Descriptor Handler) : Nat := entry.requestSize + entry.replySize

/-- Which entry it is, where it begins and what it takes. -/
def site (entry : Descriptor Handler) : TransactionId × Nat × Nat :=
  (entry.id, entry.offset, entry.span)

theorem offset_le_start (entry : Descriptor Handler) (side : Side) :
    entry.offset ≤ entry.start side := by
  cases side with
  | request => exact Nat.le_refl _
  | reply => exact Nat.le_add_right _ _

theorem start_add_size_le (entry : Descriptor Handler) (side : Side) :
    entry.start side + entry.size side ≤ entry.offset + entry.span := by
  cases side with
  | request => simp only [start, size, span]; omega
  | reply => simp only [start, size, span, replyOffset]; omega

end Descriptor

/-- What a directory holds for an ID. -/
structure Listing (Handler : Type) where
  request : List UInt8
  reply : List UInt8
  status : TransactionStatus
  handler : Option Handler

namespace Listing

def size (listing : Listing Handler) : Nat := listing.request.length + listing.reply.length

/-- A listing as it begins: two payloads of zeros, idle. -/
def blank (requestSize replySize : Nat) (handler : Option Handler) : Listing Handler :=
  ⟨List.replicate requestSize 0, List.replicate replySize 0, .idle, handler⟩

/-- Puts bytes at the front of one payload. Its length stays. -/
def write (listing : Listing Handler) (bytes : List UInt8) : Side → Listing Handler
  | .request => { listing with request := overlay bytes listing.request }
  | .reply => { listing with reply := overlay bytes listing.reply }

end Listing

/-- What can be done to a table. Bytes are written to the front of a payload, as far as it reaches;
as many bytes as it has replace it whole. -/
inductive Edit (Handler : Type) where
  | register (id : TransactionId) (requestSize replySize : Nat) (handler : Option Handler)
  | setHandler (id : TransactionId) (handler : Handler)
  | setStatus (id : TransactionId) (status : TransactionStatus)
  | write (id : TransactionId) (side : Side) (bytes : List UInt8)

abbrev Directory (Handler : Type) := TransactionId → Option (Listing Handler)

namespace Directory

def empty : Directory Handler := fun _ => none

/-- The sizes of all listings together. -/
def used (directory : Directory Handler) : Nat :=
  ∑ id, ((directory id).map Listing.size).getD 0

/-- Changes the listing of one ID, if there is one. -/
def modify (directory : Directory Handler) (id : TransactionId)
    (change : Listing Handler → Listing Handler) : Directory Handler :=
  Function.update directory id ((directory id).map change)

/-- An edit of a directory with IDs below `capacity` and room for `arenaSize` bytes. -/
def edit (capacity arenaSize : Nat) (directory : Directory Handler) :
    Edit Handler → Directory Handler
  | .register id requestSize replySize handler =>
    if id.toNat < capacity ∧ directory id = none ∧
        requestSize + replySize ≤ arenaSize - directory.used then
      Function.update directory id (some (.blank requestSize replySize handler))
    else directory
  | .setHandler id handler => directory.modify id ({ · with handler := some handler })
  | .setStatus id status => directory.modify id ({ · with status })
  | .write id side bytes => directory.modify id (·.write bytes side)

end Directory

namespace Table

variable {table table' : Table Handler} {id other : TransactionId} {entry : Descriptor Handler}

/-- An edit of a table in place, whether it succeeds or not. -/
def edit (table : Table Handler) : Edit Handler → Table Handler
  | .register id requestSize replySize handler =>
    (insert id requestSize replySize handler).after table
  | .setHandler id handler => (attach id handler).after table
  | .setStatus id status => table.setStatus id status
  | .write id .request bytes => ((table.fillRequest? id bytes).map Prod.snd).getD table
  | .write id .reply bytes => ((table.fillReply? id bytes).map Prod.snd).getD table

/-- The table with one more entry, whose payloads begin where the used arena ends. -/
def added (table : Table Handler) (id : TransactionId) (requestSize replySize : Nat)
    (handler : Option Handler) : Table Handler :=
  { table.put id ⟨id, table.used, requestSize, replySize, .idle, handler⟩ with
    used := table.used + (requestSize + replySize) }

def write (table : Table Handler) (entry : Descriptor Handler) (side : Side) (bytes : List UInt8) :
    Table Handler :=
  match side with
  | .request => table.writeRequest entry bytes
  | .reply => table.writeReply entry bytes

theorem write_eq (table : Table Handler) (entry : Descriptor Handler) (side : Side)
    (bytes : List UInt8) : table.write entry side bytes =
      { table with
        arena := splice table.arena (entry.start side) (bytes.take (entry.size side)) } := by
  cases side <;> rfl

theorem descriptor?_write (table : Table Handler) (entry : Descriptor Handler) (side : Side)
    (bytes : List UInt8) (id : TransactionId) :
    (table.write entry side bytes).descriptor? id = table.descriptor? id := by
  rw [write_eq]
  rfl

theorem edit_register (table : Table Handler) (id : TransactionId) (requestSize replySize : Nat)
    (handler : Option Handler) : table.edit (.register id requestSize replySize handler) =
      (table.register id requestSize replySize handler).toOption.getD table :=
  (cautious_insert id requestSize replySize handler).after_eq table

theorem edit_setHandler (table : Table Handler) (id : TransactionId) (handler : Handler) :
    table.edit (.setHandler id handler) = (table.setHandler id handler).toOption.getD table :=
  (cautious_attach id handler).after_eq table

theorem edit_write (table : Table Handler) (id : TransactionId) (side : Side)
    (bytes : List UInt8) : table.edit (.write id side bytes) =
      ((table.descriptor? id).map fun entry => table.write entry side bytes).getD table := by
  cases side with
  | request => rw [edit, fillRequest?, Option.map_map]; rfl
  | reply => rw [edit, fillReply?, Option.map_map]; rfl

def listing (table : Table Handler) (entry : Descriptor Handler) : Listing Handler :=
  ⟨table.requestOf entry, table.replyOf entry, entry.status, entry.handler⟩

/-- The table, seen as a directory. -/
def directory (table : Table Handler) : Directory Handler :=
  fun id => (table.descriptor? id).map table.listing

/-- The sizes of all entries together. -/
def total (table : Table Handler) : Nat :=
  ∑ id, ((table.descriptor? id).map Descriptor.span).getD 0

/-- The entries lie one behind the other, fill the used arena, and leave the rest blank. -/
structure Packed (table : Table Handler) : Prop where
  named : ∀ id entry, table.descriptor? id = some entry → entry.id = id
  apart : ∀ i j first second, table.descriptor? i = some first →
    table.descriptor? j = some second → i ≠ j →
      first.offset + first.span ≤ second.offset ∨ second.offset + second.span ≤ first.offset
  used_eq : table.used = table.total
  blank : ∀ i, table.used ≤ i → i < table.arena.length → table.arena[i]? = some 0

section Packed

/-- Packing only depends on where the entries are and on the arena behind them. -/
theorem Packed.congr (packed : table.Packed)
    (sites : ∀ id, (table'.descriptor? id).map Descriptor.site =
      (table.descriptor? id).map Descriptor.site)
    (used : table'.used = table.used) (length : table'.arena.length = table.arena.length)
    (rest : ∀ i, table.used ≤ i → table'.arena[i]? = table.arena[i]?) : table'.Packed := by
  have earlier {id entry'} (found : table'.descriptor? id = some entry') :
      ∃ entry, table.descriptor? id = some entry ∧ entry.site = entry'.site := by
    have moved := sites id
    rw [found, Option.map_some] at moved
    exact Option.map_eq_some_iff.mp moved.symm
  refine ⟨?_, ?_, ?_, ?_⟩
  · intro id entry' found
    obtain ⟨entry, known, same⟩ := earlier found
    have kept : entry.id = entry'.id := congrArg Prod.fst same
    exact kept ▸ packed.named id entry known
  · intro i j first' second' found_first found_second different
    obtain ⟨first, known_first, same_first⟩ := earlier found_first
    obtain ⟨second, known_second, same_second⟩ := earlier found_second
    have apart := packed.apart i j first second known_first known_second different
    simp only [Descriptor.site, Prod.mk.injEq] at same_first same_second
    rw [same_first.2.1, same_first.2.2, same_second.2.1, same_second.2.2] at apart
    exact apart
  · rw [used, packed.used_eq]
    refine Finset.sum_congr rfl fun id _ => ?_
    have spans := congrArg (Option.map fun site => site.2.2) (sites id)
    rw [Option.map_map, Option.map_map] at spans
    exact congrArg (Option.getD · 0) spans.symm
  · intro i beyond within
    rw [rest i (used ▸ beyond)]
    exact packed.blank i (used ▸ beyond) (length ▸ within)

theorem Packed.put {changed : Descriptor Handler} (packed : table.Packed)
    (found : table.descriptor? id = some entry) (same : changed.site = entry.site) :
    (table.put id changed).Packed := by
  refine packed.congr (fun other => ?_) rfl rfl fun _ _ => rfl
  rw [descriptor?_put]
  split
  · next own =>
    rw [own.1, found, Option.map_some, Option.map_some, same]
  · rfl

/-- Writing inside the used arena keeps the packing. -/
theorem Packed.splice {offset : Nat} {bytes : List UInt8} (packed : table.Packed)
    (within : offset + bytes.length ≤ table.used) :
    ({ table with arena := splice table.arena offset bytes } : Table Handler).Packed := by
  refine packed.congr (fun _ => rfl) rfl (length_splice ..) fun i beyond => ?_
  rw [getElem?_splice, if_neg (by omega)]

/-- A registration that succeeds adds one entry, and its sum of sizes is exact. -/
theorem Laid.register_adds {requestSize replySize : Nat} {handler : Option Handler}
    (laid : table.Laid) (done : table.register id requestSize replySize handler = .ok table') :
    id.toNat < table.capacity ∧ table.descriptor? id = none ∧
      requestSize + replySize ≤ table.arena.length - table.used ∧
      table' = table.added id requestSize replySize handler := by
  obtain ⟨valid, missing, room, rfl⟩ := register_eq_ok done
  have arena_lt := laid.arena_lt
  have exact_sum : min (requestSize + replySize) maxSize = requestSize + replySize := by omega
  rw [exact_sum] at room ⊢
  exact ⟨valid, missing, room, rfl⟩

theorem register_of_room {requestSize replySize : Nat} {handler : Option Handler}
    (valid : id.toNat < table.capacity) (missing : table.descriptor? id = none)
    (room : requestSize + replySize ≤ table.arena.length - table.used)
    (laid : table.Laid) :
    table.register id requestSize replySize handler =
      .ok (table.added id requestSize replySize handler) := by
  have arena_lt := laid.arena_lt
  have exact_sum : min (requestSize + replySize) maxSize = requestSize + replySize := by omega
  have slot : table.slots[id.toNat]? = some none := by
    have inside := List.getElem?_eq_getElem (l := table.slots) valid
    rw [descriptor?, inside, Option.join_some] at missing
    rw [inside, missing]
  rw [register, Change.outcome, run_insert]
  simp only [slot, exact_sum, if_neg (Nat.not_lt_of_le room), added]

theorem descriptor?_added {requestSize replySize : Nat} {handler : Option Handler}
    (valid : id.toNat < table.capacity) (other : TransactionId) :
    (table.added id requestSize replySize handler).descriptor? other =
      if other = id then some ⟨id, table.used, requestSize, replySize, .idle, handler⟩
      else table.descriptor? other := by
  rw [show (table.added id requestSize replySize handler).descriptor? other =
    (table.put id ⟨id, table.used, requestSize, replySize, .idle, handler⟩).descriptor? other
    from rfl, descriptor?_put]
  simp only [valid, and_true]

theorem total_added {requestSize replySize : Nat} {handler : Option Handler}
    (valid : id.toNat < table.capacity) (missing : table.descriptor? id = none) :
    (table.added id requestSize replySize handler).total =
      table.total + (requestSize + replySize) := by
  have step (other : TransactionId) :
      (((table.added id requestSize replySize handler).descriptor? other).map
        Descriptor.span).getD 0 = ((table.descriptor? other).map Descriptor.span).getD 0 +
          if other = id then requestSize + replySize else 0 := by
    rw [descriptor?_added valid]
    by_cases own : other = id
    · rw [if_pos own, if_pos own, own, missing]
      simp [Descriptor.span]
    · rw [if_neg own, if_neg own, Nat.add_zero]
  rw [total, total, Finset.sum_congr rfl fun other _ => step other, Finset.sum_add_distrib,
    Finset.sum_ite_eq' Finset.univ id, if_pos (Finset.mem_univ id)]

/-- The new entry begins where the used arena ended, so all older ones lie in front of it. -/
theorem Packed.added {requestSize replySize : Nat} {handler : Option Handler}
    (packed : table.Packed) (laid : table.Laid) (valid : id.toNat < table.capacity)
    (missing : table.descriptor? id = none) :
    (table.added id requestSize replySize handler).Packed := by
  have before (other : TransactionId) (entry : Descriptor Handler)
      (found : table.descriptor? other = some entry) : entry.offset + entry.span ≤ table.used := by
    have within := laid.entry_le other entry found
    simp only [Descriptor.span]
    omega
  refine ⟨?_, ?_, ?_, ?_⟩
  · intro other entry found
    rw [descriptor?_added valid] at found
    split at found
    · next own =>
      cases found
      exact own.symm
    · exact packed.named other entry found
  · intro i j first second found_first found_second different
    rw [descriptor?_added valid] at found_first found_second
    split at found_first
    · next own_first =>
      cases found_first
      split at found_second
      · next own_second => exact absurd (own_first.trans own_second.symm) different
      · exact .inr (before j second found_second)
    · split at found_second
      · cases found_second
        exact .inl (before i first found_first)
      · exact packed.apart i j first second found_first found_second different
  · rw [total_added valid missing, ← packed.used_eq]
    rfl
  · intro i beyond within
    exact packed.blank i (Nat.le_trans (Nat.le_add_right _ _) beyond) within

theorem packed_empty (capacity arenaSize : Nat) :
    (empty capacity arenaSize : Table Handler).Packed := by
  have nothing (id : TransactionId) (entry : Descriptor Handler) :
      (empty capacity arenaSize).descriptor? id ≠ some entry := by
    rw [descriptor?_empty]
    exact Option.some_ne_none entry ∘ Eq.symm
  refine ⟨fun id entry found => absurd found (nothing id entry),
    fun i _ first _ found => absurd found (nothing i first), ?_, ?_⟩
  · rw [total, Finset.sum_eq_zero]
    · rfl
    · intro id _
      rw [descriptor?_empty]
      rfl
  · intro i _ within
    rw [empty, List.length_replicate] at within
    rw [empty, List.getElem?_replicate, if_pos within]

theorem Built.packed (built : table.Built) : table.Packed := by
  induction built with
  | empty capacity small => exact packed_empty capacity _
  | register built done packed =>
    obtain ⟨valid, missing, _, rfl⟩ := built.laid.register_adds done
    exact packed.added built.laid valid missing
  | setHandler built done packed =>
    obtain ⟨entry, found, rfl⟩ := setHandler_eq_ok done
    exact packed.put found rfl
  | setStatus id status built packed =>
    unfold Table.setStatus
    split
    · next entry found => exact packed.put found rfl
    · exact packed
  | @writeRequest old id entry bytes built found packed =>
    have within := built.laid.entry_le id entry found
    refine packed.splice ?_
    have := List.length_take_le entry.requestSize bytes
    omega
  | @writeReply old id entry bytes built found packed =>
    have within := built.laid.entry_le id entry found
    refine packed.splice ?_
    have := List.length_take_le entry.replySize bytes
    simp only [Descriptor.replyOffset]
    omega

end Packed

section Directory

theorem directory_eq_none_iff : table.directory id = none ↔ table.descriptor? id = none :=
  Option.map_eq_none_iff

theorem directory_of_descriptor? (found : table.descriptor? id = some entry) :
    table.directory id = some (table.listing entry) := by
  rw [directory, found, Option.map_some]

/-- The listings of a directory take the room of the entries that they stand for. -/
theorem Built.used_directory (built : table.Built) : table.directory.used = table.used := by
  rw [built.packed.used_eq]
  refine Finset.sum_congr rfl fun id _ => ?_
  rw [directory]
  cases found : table.descriptor? id with
  | none => rfl
  | some entry =>
    simp only [Option.map_some, Option.getD_some, listing, Listing.size, Descriptor.span,
      built.length_requestOf found, built.length_replyOf found]

/-- A window of the blank arena shows zeros. -/
theorem Packed.window_blank (packed : table.Packed) {start size : Nat} (beyond : table.used ≤ start)
    (within : start + size ≤ table.arena.length) :
    (table.arena.drop start).take size = List.replicate size 0 := by
  apply List.ext_getElem?
  intro i
  rw [getElem?_window, List.getElem?_replicate]
  split
  · exact packed.blank (start + i) (by omega) (by omega)
  · rfl

theorem Built.directory_added {requestSize replySize : Nat} {handler : Option Handler}
    (built : table.Built) (valid : id.toNat < table.capacity)
    (room : requestSize + replySize ≤ table.arena.length - table.used) :
    (table.added id requestSize replySize handler).directory =
      Function.update table.directory id (some (.blank requestSize replySize handler)) := by
  funext other
  have used_le := built.laid.used_le
  rw [directory, descriptor?_added valid, Function.update_apply]
  split
  · rw [Option.map_some]
    simp only [listing, Listing.blank, requestOf, replyOf, Descriptor.replyOffset, added, put,
      built.packed.window_blank (Nat.le_refl _) (by omega : table.used + requestSize ≤ _),
      built.packed.window_blank (Nat.le_add_right _ _)
        (by omega : table.used + requestSize + replySize ≤ _)]
  · rfl

/-- An entry changed in status or handler alone is a listing changed alike. -/
theorem directory_put {changed : Descriptor Handler} {change : Listing Handler → Listing Handler}
    (found : table.descriptor? id = some entry)
    (alike : table.listing changed = change (table.listing entry)) :
    (table.put id changed).directory = table.directory.modify id change := by
  funext other
  have valid := lt_capacity_of_descriptor? found
  rw [directory, descriptor?_put, Directory.modify, Function.update_apply,
    directory_of_descriptor? found]
  simp only [valid, and_true]
  split
  · exact congrArg some alike
  · rfl

theorem modify_of_missing {directory : Directory Handler} (missing : directory id = none)
    (change : Listing Handler → Listing Handler) : directory.modify id change = directory := by
  rw [Directory.modify, missing, Option.map_none, ← missing, Function.update_eq_self]

/-- Bytes written to a payload of one entry are seen in no other entry. -/
theorem Built.listing_splice {bytes : List UInt8} {offset : Nat} {seen : Descriptor Handler}
    (built : table.Built) (found : table.descriptor? id = some entry)
    (found_seen : table.descriptor? other = some seen) (different : other ≠ id)
    (after : entry.offset ≤ offset) (within : offset + bytes.length ≤ entry.offset + entry.span) :
    ({ table with arena := splice table.arena offset bytes } : Table Handler).listing seen =
      table.listing seen := by
  have apart := built.packed.apart other id seen entry found_seen found different
  have request : seen.offset + seen.requestSize ≤ offset ∨
      offset + bytes.length ≤ seen.offset := by
    simp only [Descriptor.span] at apart within
    omega
  have reply : seen.replyOffset + seen.replySize ≤ offset ∨
      offset + bytes.length ≤ seen.replyOffset := by
    simp only [Descriptor.span, Descriptor.replyOffset] at apart within ⊢
    omega
  simp only [listing, requestOf, replyOf, window_splice_other request, window_splice_other reply]

/-- What is written over a request is read back, with the rest of the old request behind it. -/
theorem Built.requestOf_writeRequest_overlay {bytes : List UInt8} (built : table.Built)
    (found : table.descriptor? id = some entry) :
    (table.writeRequest entry bytes).requestOf entry = overlay bytes (table.requestOf entry) := by
  have within := built.entry_le found
  rw [requestOf, Table.writeRequest, window_splice_same (by omega) (List.length_take_le _ _)]
  exact overlay_take (built.length_requestOf found)

theorem Built.listing_write {bytes : List UInt8} (built : table.Built)
    (found : table.descriptor? id = some entry) (side : Side) :
    (table.write entry side bytes).listing entry = (table.listing entry).write bytes side := by
  cases side with
  | request =>
    simp only [write, listing, Listing.write, built.requestOf_writeRequest_overlay found,
      replyOf_writeRequest]
  | reply =>
    simp only [write, listing, Listing.write, requestOf_writeReply, built.replyOf_writeReply found,
      overlay_take (built.length_replyOf found)]

theorem Built.directory_write {bytes : List UInt8} (built : table.Built)
    (found : table.descriptor? id = some entry) (side : Side) :
    (table.write entry side bytes).directory = table.directory.modify id (·.write bytes side) := by
  funext other
  rw [Directory.modify, Function.update_apply, directory, descriptor?_write]
  by_cases own : other = id
  · rw [if_pos own, own, directory_of_descriptor? found, found, Option.map_some, Option.map_some,
      built.listing_write found]
  · rw [if_neg own, directory]
    cases found_seen : table.descriptor? other with
    | none => rfl
    | some seen =>
      have inside := entry.start_add_size_le side
      have taken := List.length_take_le (entry.size side) bytes
      rw [Option.map_some, Option.map_some, write_eq, built.listing_splice found found_seen own
        (entry.offset_le_start side) (by omega)]

/-- An edit of a table is the same edit of its directory. -/
theorem Built.directory_edit (built : table.Built) (edit : Edit Handler) :
    (table.edit edit).directory = table.directory.edit table.capacity table.arena.length edit := by
  cases edit with
  | register id requestSize replySize handler =>
    rw [Directory.edit, built.used_directory, edit_register]
    split
    · next fits =>
      obtain ⟨valid, missing, room⟩ := fits
      rw [register_of_room valid (directory_eq_none_iff.mp missing) room built.laid]
      exact built.directory_added valid room
    · next refused =>
      cases outcome : table.register id requestSize replySize handler with
      | error error => rfl
      | ok next =>
        obtain ⟨valid, missing, room, _⟩ := built.laid.register_adds outcome
        exact absurd ⟨valid, directory_eq_none_iff.mpr missing, room⟩ refused
  | setHandler id handler =>
    rw [Directory.edit, edit_setHandler, setHandler_eq]
    cases found : table.descriptor? id with
    | none =>
      rw [resolve_eq_error found, modify_of_missing (directory_eq_none_iff.mpr found)]
      rfl
    | some entry =>
      rw [resolve_eq_ok_iff.mpr found]
      exact directory_put found rfl
  | setStatus id status =>
    rw [Directory.edit, Table.edit, Table.setStatus]
    cases found : table.descriptor? id with
    | none => rw [modify_of_missing (directory_eq_none_iff.mpr found)]
    | some entry => exact directory_put found rfl
  | write id side bytes =>
    rw [Directory.edit, edit_write]
    cases found : table.descriptor? id with
    | none => rw [modify_of_missing (directory_eq_none_iff.mpr found)]; rfl
    | some entry => exact built.directory_write found side

theorem Built.edit (built : table.Built) (edit : Edit Handler) : (table.edit edit).Built := by
  cases edit with
  | register id requestSize replySize handler =>
    rw [edit_register]
    cases outcome : table.register id requestSize replySize handler with
    | error error => exact built
    | ok next => exact .register built outcome
  | setHandler id handler =>
    rw [edit_setHandler]
    cases outcome : table.setHandler id handler with
    | error error => exact built
    | ok next => exact .setHandler built outcome
  | setStatus id status => exact .setStatus id status built
  | write id side bytes =>
    rw [edit_write]
    cases found : table.descriptor? id with
    | none => exact built
    | some entry =>
      cases side with
      | request => exact .writeRequest bytes built found
      | reply => exact .writeReply bytes built found

/-- An edit changes neither how many IDs there can be nor how long the arena is. -/
theorem Built.dimensions_edit (built : table.Built) (edit : Edit Handler) :
    (table.edit edit).capacity = table.capacity ∧
      (table.edit edit).arena.length = table.arena.length := by
  have put (id : TransactionId) (entry : Descriptor Handler) :
      (table.put id entry).capacity = table.capacity := List.length_set
  cases edit with
  | register id requestSize replySize handler =>
    rw [edit_register]
    cases outcome : table.register id requestSize replySize handler with
    | error error => exact ⟨rfl, rfl⟩
    | ok next =>
      obtain ⟨_, _, _, rfl⟩ := built.laid.register_adds outcome
      exact ⟨put .., rfl⟩
  | setHandler id handler =>
    rw [edit_setHandler]
    cases outcome : table.setHandler id handler with
    | error error => exact ⟨rfl, rfl⟩
    | ok next =>
      obtain ⟨entry, _, rfl⟩ := setHandler_eq_ok outcome
      exact ⟨put .., rfl⟩
  | setStatus id status =>
    rw [Table.edit, Table.setStatus]
    split
    · exact ⟨put .., rfl⟩
    · exact ⟨rfl, rfl⟩
  | write id side bytes =>
    rw [edit_write]
    cases table.descriptor? id with
    | none => exact ⟨rfl, rfl⟩
    | some entry =>
      rw [Option.map_some, Option.getD_some, write_eq]
      exact ⟨rfl, length_splice ..⟩

/-- Whatever is done to a table, it stays in step with its directory. -/
theorem directory_edits {capacity arenaSize : Nat} {directory : Directory Handler}
    (built : table.Built) (alike : table.directory = directory) (slots : table.capacity = capacity)
    (length : table.arena.length = arenaSize) (edits : List (Edit Handler)) :
    (edits.foldl Table.edit table).Built ∧
      (edits.foldl Table.edit table).directory =
        edits.foldl (Directory.edit capacity arenaSize) directory ∧
      (edits.foldl Table.edit table).capacity = capacity ∧
      (edits.foldl Table.edit table).arena.length = arenaSize := by
  induction edits generalizing table directory with
  | nil => exact ⟨built, alike, slots, length⟩
  | cons edit edits ih =>
    obtain ⟨kept_slots, kept_length⟩ := built.dimensions_edit edit
    refine ih (built.edit edit) ?_ (kept_slots.trans slots) (kept_length.trans length)
    rw [built.directory_edit edit, alike, slots, length]

end Directory

/-- An entry shows its listing, wherever it is looked at. -/
structure Describes (table : Table Handler) (id : TransactionId) (entry : Descriptor Handler)
    (listing : Listing Handler) : Prop where
  id : entry.id = id
  requestSize : entry.requestSize = listing.request.length
  replySize : entry.replySize = listing.reply.length
  status : entry.status = listing.status
  handler : entry.handler = listing.handler
  request : table.requestOf entry = listing.request
  reply : table.replyOf entry = listing.reply
  /-- The two payloads are one stretch of the arena, which can be split between them. -/
  stretch : (table.arena.drop entry.offset).take entry.span = listing.request ++ listing.reply
  /-- A handler is given the request to read and the reply to write. -/
  handling : ∀ handler, listing.handler = some handler → ∃ next,
    Target.runHandler table entry = .ask (.inr ⟨handler, listing.request, listing.reply⟩) next

/-- Every way to look at a table shows the listing of an ID, or that there is none. -/
structure Shows (table : Table Handler) (directory : Directory Handler) : Prop where
  isRegistered : ∀ id, table.isRegistered id = (directory id).isSome
  status? : ∀ id, table.status? id = (directory id).map Listing.status
  request? : ∀ id, table.request? id = (directory id).map Listing.request
  reply? : ∀ id, table.reply? id = (directory id).map Listing.reply
  unknown : ∀ id, directory id = none → table.descriptor? id = none ∧ table.resolve id =
    .error (if table.capacity ≤ id.toNat then .invalidId id else .notRegistered id)
  known : ∀ id listing, directory id = some listing → ∃ entry,
    table.descriptor? id = some entry ∧ table.resolve id = .ok entry ∧
      table.Describes id entry listing

/-- The payloads of a table have the arena to themselves, each its own part of it. -/
structure Separate (table : Table Handler) (arenaSize : Nat) : Prop where
  within : ∀ id entry side, table.descriptor? id = some entry →
    entry.start side + entry.size side ≤ arenaSize
  disjoint : ∀ i j first second side side', table.descriptor? i = some first →
    table.descriptor? j = some second → (i, side) ≠ (j, side') →
      Disjoint (first.places side) (second.places side')
  used_eq : table.used = table.total
  used_le : table.used ≤ arenaSize

theorem Built.describes (built : table.Built) (found : table.descriptor? id = some entry) :
    table.Describes id entry (table.listing entry) := by
  refine ⟨built.packed.named id entry found, (built.length_requestOf found).symm,
    (built.length_replyOf found).symm, rfl, rfl, rfl, rfl, ?_, ?_⟩
  · rw [Descriptor.span, List.take_add, List.drop_drop]
    rfl
  · intro handler runs
    refine ⟨fun output => .done (table.writeReply entry output), ?_⟩
    unfold Target.runHandler
    rw [show entry.handler = some handler from runs]
    rfl

theorem Built.shows (built : table.Built) : table.Shows table.directory := by
  refine ⟨?_, ?_, ?_, ?_, ?_, ?_⟩
  · intro id
    rw [isRegistered, directory, Option.isSome_map]
  · intro id
    rw [status?, directory, Option.map_map]
    rfl
  · intro id
    rw [request?, directory, Option.map_map]
    rfl
  · intro id
    rw [reply?, directory, Option.map_map]
    rfl
  · intro id missing
    have unknown := directory_eq_none_iff.mp missing
    exact ⟨unknown, resolve_eq_error unknown⟩
  · intro id listing known
    obtain ⟨entry, found, rfl⟩ := Option.map_eq_some_iff.mp known
    exact ⟨entry, found, resolve_eq_ok_iff.mpr found, built.describes found⟩

theorem Built.separate (built : table.Built) : table.Separate table.arena.length := by
  refine ⟨?_, ?_, built.packed.used_eq, built.laid.used_le⟩
  · intro id entry side found
    have inside := entry.start_add_size_le side
    have within := built.entry_le found
    simp only [Descriptor.span] at inside
    omega
  · intro i j first second side side' found_first found_second different
    have inside_first := first.start_add_size_le side
    have inside_second := second.start_add_size_le side'
    have after_first := first.offset_le_start side
    have after_second := second.offset_le_start side'
    rw [Descriptor.places, Descriptor.places, Finset.disjoint_left]
    intro place in_first in_second
    rw [Finset.mem_Ico] at in_first in_second
    by_cases same : i = j
    · -- Both payloads are of one entry, where the reply begins at the end of the request.
      subst same
      cases found_first.symm.trans found_second
      cases side with
      | request =>
        cases side' with
        | request => exact different rfl
        | reply => simp only [Descriptor.start, Descriptor.size, Descriptor.replyOffset] at *; omega
      | reply =>
        cases side' with
        | request => simp only [Descriptor.start, Descriptor.size, Descriptor.replyOffset] at *; omega
        | reply => exact different rfl
    · have apart := built.packed.apart i j first second found_first found_second same
      omega

/-- In any sequence of edits from an empty table, the payloads stay apart inside the arena, whose used
part is exactly as long as they are together, and every way to look at the table shows a directory
that went through the same edits. A registration succeeds just when the ID is free and there is
room, and what is refused has changed nothing when the error is raised. -/
theorem edits_refine (capacity : Nat) {arenaSize : Nat} (small : arenaSize < maxSize)
    (edits : List (Edit Handler)) :
    let table := edits.foldl Table.edit (.empty capacity arenaSize)
    let directory := edits.foldl (Directory.edit capacity arenaSize) .empty
    table.Separate arenaSize ∧ table.Shows directory ∧
      (∀ id requestSize replySize handler,
        (∃ next, table.register id requestSize replySize handler = .ok next) ↔
          id.toNat < capacity ∧ directory id = none ∧
            requestSize + replySize ≤ arenaSize - table.used) ∧
      (∀ id requestSize replySize handler error,
        table.register id requestSize replySize handler = .error error →
          (insert id requestSize replySize handler).run table = .error error table ∧
            table.edit (.register id requestSize replySize handler) = table) ∧
      (∀ id handler, ((∃ next, table.setHandler id handler = .ok next) ↔ directory id ≠ none) ∧
        (directory id = none → (∃ error, (attach id handler).run table = .error error table) ∧
          table.edit (.setHandler id handler) = table)) := by
  intro table directory
  have alike : (empty capacity arenaSize : Table Handler).directory = .empty := by
    funext id
    exact directory_eq_none_iff.mpr (descriptor?_empty capacity arenaSize id)
  obtain ⟨built, same, slots, length⟩ :
      table.Built ∧ table.directory = directory ∧ table.capacity = capacity ∧
        table.arena.length = arenaSize :=
    directory_edits (.empty capacity small) alike List.length_replicate List.length_replicate edits
  rw [← same, ← length, ← slots]
  refine ⟨built.separate, built.shows, ?_, ?_, ?_⟩
  · intro id requestSize replySize handler
    rw [directory_eq_none_iff]
    constructor
    · rintro ⟨next, done⟩
      obtain ⟨valid, missing, room, _⟩ := built.laid.register_adds done
      exact ⟨valid, missing, room⟩
    · rintro ⟨valid, missing, room⟩
      exact ⟨_, register_of_room valid missing room built.laid⟩
  · intro id requestSize replySize handler error refused
    have raised := (cautious_insert id requestSize replySize handler).run_eq_error refused
    rw [edit_register, refused]
    exact ⟨raised, rfl⟩
  · intro id handler
    rw [Ne, directory_eq_none_iff, edit_setHandler, setHandler_eq, run_attach]
    cases found : table.descriptor? id with
    | none =>
      rw [resolve_eq_error found]
      exact ⟨⟨fun ⟨_, done⟩ => (nomatch done), fun known => absurd rfl known⟩,
        fun _ => ⟨⟨_, rfl⟩, rfl⟩⟩
    | some entry =>
      rw [resolve_eq_ok_iff.mpr found]
      exact ⟨⟨fun _ => Option.some_ne_none entry, fun _ => ⟨_, rfl⟩⟩, fun missing => nomatch missing⟩

/-- Two entries fill an arena of four bytes. A third does not fit, and a long write to the first reply
does not reach the request behind it. -/
theorem edits_refine_full :
    let edits : List (Edit Unit) := [.register 0 1 1 none, .register 2 2 0 (some ()),
      .register 1 maxSize maxSize none, .write 0 .reply [7, 8, 9], .setStatus 2 .accepted]
    let table := edits.foldl Table.edit (.empty 3 4)
    4 < maxSize ∧ table.Separate 4 ∧
      table.Shows (edits.foldl (Directory.edit 3 4) .empty) ∧ table.used = 4 ∧
      table.isRegistered 1 = false ∧ table.reply? 0 = some [7] ∧ table.request? 2 = some [0, 0] := by
  intro edits table
  have small : 4 < maxSize := by decide
  obtain ⟨separate, shows, _⟩ := edits_refine 3 small edits
  exact ⟨small, separate, shows, by decide, by decide, by decide, by decide⟩

end Table
end SplitKeyboard
