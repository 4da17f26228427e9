import SplitKeyboard.Initiator
import SplitKeyboard.Proofs.Table.Layout

/-!
Jobs for an initiator. A job names a transaction, when it is made and what is to be sent in it.
-/
namespace SplitKeyboard

structure Job where
  now : Millis
  id : TransactionId
  contents : List UInt8
  deriving DecidableEq

namespace Initiator

variable {Handler : Type} {initiator : Initiator Handler} {job : Job} {entry : Descriptor Handler}

/-- Puts the contents of a job where the initiator sends them from. -/
def load (initiator : Initiator Handler) (job : Job) : Initiator Handler :=
  match initiator.table.fillRequest? job.id job.contents with
  | none => initiator
  | some (_, table) => { initiator with table }

theorem load_eq (found : initiator.table.descriptor? job.id = some entry) :
    initiator.load job =
      { initiator with table := initiator.table.writeRequest entry job.contents } := by
  simp only [load, Table.fillRequest?, found, Option.map_some]

section Loaded

variable (built : initiator.table.Built) (found : initiator.table.descriptor? job.id = some entry)
include found

theorem descriptor?_load : (initiator.load job).table.descriptor? job.id = some entry := by
  rw [load_eq found]
  exact found

theorem sizes?_load (id : TransactionId) :
    (initiator.load job).table.sizes? id = initiator.table.sizes? id := by
  rw [load_eq found]
  rfl

theorem link_load : (initiator.load job).link = initiator.link := by rw [load_eq found]

theorem tooSoon_load (now : Millis) :
    (initiator.load job).tooSoon now = initiator.tooSoon now := by
  rw [load_eq found]
  rfl

include built

theorem built_load : (initiator.load job).table.Built := by
  rw [load_eq found]
  exact .writeRequest _ built found

theorem requestOf_load (full : job.contents.length = entry.requestSize) :
    (initiator.load job).table.requestOf entry = job.contents := by
  rw [load_eq found]
  exact built.requestOf_writeRequest found full

end Loaded

end Initiator
end SplitKeyboard
