import Slab.Arena.Basic

/-!
# Building arenas

An arena is built in a dialogue with the system: the construction asks for one thing after another
and goes on by the answers. It gives up at the first refusal that the options do not tolerate.

* `Request`, `Answer`: what is asked for, and what comes back;
* `Dialogue`: requests, each with what follows on every answer, and a result in the end;
* `Dialogue.run`: the result of a dialogue with a system that answers in a given way;
* `construct`: the construction;
* `Host.answer`, `build`: the answers of a machine, and the construction on it.
-/

namespace Slab

namespace Arena

/-- What the construction of an arena asks the system for. -/
inductive Request
  /-- Whether memory can be placed on locality domains at all. -/
  | probe
  /-- A fresh mapping of so many bytes. -/
  | map (size : Nat)
  /-- A mapping on a domain. -/
  | bind (base size : Nat) (domain : UInt32)
  /-- Huge pages for a mapping. -/
  | advise (base size : Nat)
  /-- No swapping of any memory of the process. -/
  | lockAll
  /-- No swapping of a mapping. -/
  | lockRegion (base size : Nat)
  /-- The end of a mapping. -/
  | unmap (base size : Nat)
  deriving DecidableEq, Repr

/-- A refusal, or consent. What consent gives is the address of a mapping where one was asked for,
and means nothing elsewhere. -/
abbrev Answer := Except Fault Nat

/-- Requests, each with what follows on every answer, and a result in the end. -/
inductive Dialogue (α : Type)
  | done (result : α)
  | ask (request : Request) (next : Answer → Dialogue α)

/-- The result of a dialogue with a system that answers in a given way. -/
def Dialogue.run {α : Type} (answer : Request → Answer) : Dialogue α → α
  | done result => result
  | ask request next => (next (answer request)).run answer

/-- What becomes of a construction. -/
abbrev Attempt := Dialogue (Except ArenaError Arena)

/-- Locks what the options say. A refusal is tolerated. -/
def lock (o : Options) (a : Arena) : Attempt :=
  match o.lock with
  | .all => .ask .lockAll fun _ => .done (.ok a)
  | .region => .ask (.lockRegion a.base a.size) fun _ => .done (.ok a)
  | .none => .done (.ok a)

/-- Advises huge pages if the options say so. A refusal is tolerated. -/
def advise (o : Options) (a : Arena) : Attempt :=
  if o.hugePages then .ask (.advise a.base a.size) fun _ => lock o a else lock o a

/-- What follows when a mapping cannot be placed on its domain. Where that is required the mapping
is given back. -/
def unplaced (o : Options) (a : Arena) (fault : Fault) : Attempt :=
  match o.locality with
  | .required =>
    .ask (.unmap a.base a.size) fun _ => .done (.error (.localityUnavailable o.domain fault))
  | .preferred => advise o a

/-- Places a mapping on its domain. A domain that no set of domains can name is not asked for. -/
def place (o : Options) (a : Arena) : Attempt :=
  if o.domain.toNat < Host.domainLimit then
    .ask (.bind a.base a.size o.domain) fun
      | .ok _ => advise o { a with bound := true }
      | .error fault => unplaced o a fault
  else unplaced o a Host.domainOutOfRange

/-- A fresh mapping as an arena that may lie anywhere. -/
def ofMapping (o : Options) (base size : Nat) : Arena :=
  { base, size, domain := o.domain, hugePages := o.hugePages, bound := false, cursor := 0,
    memory := .zero }

/-- Maps the pages, and places them if memory can be placed. -/
def mapPages (o : Options) (size : Nat) (placeable : Bool) : Attempt :=
  .ask (.map size) fun
    | .error fault => .done (.error (.outOfMemory size fault))
    | .ok base =>
      if placeable then place o (ofMapping o base size) else advise o (ofMapping o base size)

/-- Finds out whether memory can be placed. That it cannot is an error only where placement is
required. -/
def probe (o : Options) (size : Nat) : Attempt :=
  .ask .probe fun
    | .ok _ => mapPages o size true
    | .error fault =>
      match o.locality with
      | .required => .done (.error (.localityUnavailable o.domain fault))
      | .preferred => mapPages o size false

/-- The construction of an arena. -/
def construct (o : Options) : Attempt :=
  if o.sizeBytes = 0 then .done (.error .zeroSize)
  else
    match Size.roundUp? pageSize o.sizeBytes with
    | none => .done (.error (.outOfMemory o.sizeBytes ArenaError.tooLarge))
    | some size => probe o size

/-- Consent unless there is a refusal. -/
def Answer.ofRefusal : Option Fault → Answer
  | none => .ok 0
  | some fault => .error fault

end Arena

/-- What a machine answers to a request. -/
def Host.answer (host : Host) : Arena.Request → Arena.Answer
  | .probe => .ofRefusal host.locality
  | .map size => host.map size
  | .bind base size domain => .ofRefusal (host.bind base size domain)
  | .advise base size => .ofRefusal (host.advise base size)
  | .lockAll => .ofRefusal host.lockAll
  | .lockRegion base size => .ofRefusal (host.lockRegion base size)
  | .unmap base size => .ofRefusal (host.unmap base size)

/-- Builds an arena on a machine. -/
def Arena.build (host : Host) (o : Options) : Except ArenaError Arena :=
  (construct o).run host.answer

end Slab
