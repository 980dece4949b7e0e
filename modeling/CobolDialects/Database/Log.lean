import CobolDialects.Database.Basic

/-!
# Logs of databases

Changes of a database can go to a log, a file of its own, from which they are brought to the file of
the database only later. A log that holds all pages of the database stands for it alone; one that
holds only what has changed needs that file as well.
-/

namespace CobolDialects.Database

/-- How much a log holds. -/
inductive Extent where
  /-- The whole database. -/
  | whole
  /-- What has changed. The rest is in the file of the database. -/
  | part
  /-- Some of what has changed, behind a beginning that is lost. -/
  | torn
deriving DecidableEq, Repr

/-- How much a log holds after one more change. The change that declares the relation writes the
whole database. -/
def Extent.next (old : Extent) (before after : Database) : Extent :=
  match old with
  | .part => if before.relation.isNone ∧ after.relation.isSome then .whole else .part
  | extent => extent

/-- A log: the database as it is after each of its changes, and how much of that is in the log. -/
structure Log where
  states : List Database
  extent : Extent
deriving DecidableEq, Repr

namespace Log

/-- How many changes can be found by who comes upon the log. -/
def reach (l : Log) : Nat := if l.extent = .torn then 0 else l.states.length

/-- The database after a number of changes, of which there is at least one. -/
def state? (l : Log) : Nat → Option Database
  | 0 => none
  | n + 1 => l.states[n]?

/-- Whether a log and what is in the file of the database give the database together. -/
def isMergeable (l : Log) (base : Option Database) : Bool :=
  match l.extent with
  | .whole => true
  | .part => base.isSome
  | .torn => false

/-- What is left of a log of some changes that has been written over. -/
def lost (reach : Nat) : Log := ⟨List.replicate reach .empty, .torn⟩

/-- The log in which a change follows a number of others. Those behind them are lost. -/
def add (l : Log) (reach : Nat) (before after : Database) : Log :=
  let kept := if l.states.length < reach then lost reach else l
  ⟨kept.states.take reach ++ [after], kept.extent.next before after⟩

theorem state?_add (l : Log) (reach : Nat) (before after : Database) :
    (l.add reach before after).state? (reach + 1) = some after := by
  simp only [add, state?]
  split
  · simp [lost]
  · rename_i h
    have h : (l.states.take reach).length = reach := by simp; omega
    simp [h]

/-- The log that begins with a change. -/
def begin (before after : Database) : Log := ⟨[after], Extent.part.next before after⟩

theorem state?_begin (before after : Database) : (begin before after).state? 1 = some after := rfl

end Log

end CobolDialects.Database
