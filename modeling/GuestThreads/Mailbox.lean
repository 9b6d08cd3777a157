/-!
# Mailboxes

A mailbox is an unbounded queue in front of a pump, which offers the items one at a time to a
reader. A posting party appends and rings; the pump takes the whole queue as a batch and delivers it
item by item. Closing lets what is queued through and discarding drops it.

The parts that run in one piece are `enqueue`, `notify`, `markClosed`, `clear`, `finish`, `advance`
and `receive`. The operations are made of them, and `settle` lets the pump run until it waits.
-/

namespace GuestThreads

/-- What the pump is about to do. -/
inductive Mailbox.Pump (α : Type) where
  /-- Take the queue as the next batch. -/
  | taking
  /-- Sleep until someone rings or the mailbox is discarded. -/
  | waiting
  /-- Look whether the mailbox is discarded before the next item. -/
  | checking (item : α) (rest : List α)
  /-- Offer an item to the reader. -/
  | offering (item : α) (rest : List α)
  /-- Account for an item that the reader took. -/
  | delivered (rest : List α)
  | stopped
deriving DecidableEq, Repr

structure Mailbox (α : Type) where
  queue : List α := []
  /-- How many items are posted and not yet received. -/
  pending : Nat := 0
  closed : Bool := false
  /-- Someone rang since the pump last woke up. -/
  rung : Bool := false
  discarded : Bool := false
  pump : Mailbox.Pump α := .taking
deriving DecidableEq, Repr

namespace Mailbox

variable {α : Type}

/-- What the pump turns to with these items left of its batch. -/
def Pump.next : List α → Pump α
  | [] => .taking
  | v :: rest => .checking v rest

/-- Append an item, unless the mailbox is closed. -/
def enqueue (m : Mailbox α) (v : α) : Mailbox α :=
  if m.closed then m else { m with queue := m.queue ++ [v], pending := m.pending + 1 }

/-- Ring. Ringing twice is ringing once. -/
def notify (m : Mailbox α) : Mailbox α := { m with rung := true }

def markClosed (m : Mailbox α) : Mailbox α := { m with closed := true }

/-- Close, and forget what is queued. -/
def clear (m : Mailbox α) : Mailbox α := { m with closed := true, queue := [], pending := 0 }

/-- Tell the pump to stop at the next opportunity. -/
def finish (m : Mailbox α) : Mailbox α := { m with discarded := true }

/-- The pump's next step by itself, if it has one. -/
def advance (m : Mailbox α) : Option (Mailbox α) :=
  match m.pump with
  | .taking =>
    match m.queue with
    | v :: rest => some { m with queue := [], pump := .checking v rest }
    | [] => some { m with pump := if m.closed then .stopped else .waiting }
  | .waiting =>
    if m.rung then some { m with rung := false, pump := .taking }
    else if m.discarded then some { m with pump := .stopped }
    else none
  | .checking v rest =>
    some { m with pump := if m.discarded then .stopped else .offering v rest }
  | .offering _ _ => if m.discarded then some { m with pump := .stopped } else none
  | .delivered rest => some { m with pending := m.pending - 1, pump := .next rest }
  | .stopped => none

/-- At most `steps` steps of the pump. -/
def run : (steps : Nat) → Mailbox α → Mailbox α
  | 0, m => m
  | steps + 1, m =>
    match m.advance with
    | some m' => run steps m'
    | none => m

/-- Let the pump run until it waits for someone; six steps always do. -/
def settle (m : Mailbox α) : Mailbox α := m.run 6

/-- Take the item on offer. -/
def receive (m : Mailbox α) : Option (α × Mailbox α) :=
  match m.pump with
  | .offering v rest => some (v, { m with pump := .delivered rest })
  | _ => none

def new : Mailbox α := settle {}

/-- Hand in an item. A closed mailbox drops it and does not ring. -/
def post (m : Mailbox α) (v : α) : Mailbox α :=
  if m.closed then m else (m.enqueue v).notify.settle

/-- Stop accepting items. -/
def close (m : Mailbox α) : Mailbox α := m.markClosed.notify.settle

/-- Close and drop every item not yet received. -/
def discard (m : Mailbox α) : Mailbox α := m.clear.finish.settle

/-- What a reader meets. -/
inductive Received (α : Type) where
  | item (v : α)
  | nothing
  | ended
deriving DecidableEq, Repr

/-- Take the next item, if one is there. -/
def recv (m : Mailbox α) : Received α × Mailbox α :=
  let m := m.settle
  match m.receive with
  | some (v, m') => (.item v, m'.settle)
  | none => (match m.pump with | .stopped => .ended | _ => .nothing, m)

/-- Take at most `limit` items. -/
def take : (limit : Nat) → Mailbox α → List α × Mailbox α
  | 0, m => ([], m)
  | limit + 1, m =>
    match m.recv with
    | (.item v, m') =>
      let (vs, m'') := take limit m'
      (v :: vs, m'')
    | (_, m') => ([], m')

/-- Take everything that is there. -/
def drain (m : Mailbox α) : List α × Mailbox α := m.take m.pending

end Mailbox

end GuestThreads
