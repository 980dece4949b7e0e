import CobolDialects.CommandLine.Run
import CobolDialects.Proofs.Catalog.Calls

/-!
# What commands reply

A command that reads makes one call, and what it replies is made of the list that the answer stands
for. Registering makes a second call, and replies with an empty text once that has succeeded. So the
reply of a command is known from what the store answers, whatever the store is.
-/

namespace CobolDialects.CommandLine

open Settings Catalog

variable {σ : Type} {store : Store σ} {s : σ} {key : String} {c : Command} {ds : List Descriptor}

namespace Command

/-- The commands that only read. -/
def Reads : Command → Prop
  | .register .. => False
  | _ => True

instance (c : Command) : Decidable c.Reads := by
  cases c <;> unfold Reads <;> infer_instance

/-- What a command replies if the registry is a list. -/
def answer (ds : List Descriptor) : Command → Reply
  | .list json => .text (if json then jsonList ds else plainList ds)
  | .show name =>
    match ds.find? (·.name = name) with
    | some d => .text (jsonRecord d)
    | none => .notRegistered name
  | .register .. => .text ""
  | .paths => .text (pathLines (ds.map (·.path)))

/-- A command that reads makes one call and replies with what it makes of the list. -/
theorem makes_reading (reads : c.Reads) (store : Store σ) (key : String) (s : σ) :
    (c.action key).Makes store s [(.get key, .value (store.get key s).result)]
      (((store.get key s).result.bind (listOf key)).map (c.answer ·)) (store.get key s).state := by
  have listing := makes_list store key s
  cases c with
  | list json => exact listing.map _
  | «show» name =>
    have made := (listing.map (·.find? (·.name = name))).map fun
      | some d => Reply.text (jsonRecord d)
      | none => .notRegistered name
    refine ⟨made.calls, made.result.trans ?_, made.state⟩
    cases (store.get key s).result.bind (listOf key) <;> rfl
  | register => exact reads.elim
  | paths =>
    have made := (listing.map (·.map (·.path))).map fun paths => Reply.text (pathLines paths)
    refine ⟨made.calls, made.result.trans ?_, made.state⟩
    cases (store.get key s).result.bind (listOf key) <;> rfl

/-- The command that registers a descriptor. -/
def registering (d : Descriptor) : Command := .register d.name d.path d.description d.owner

/-- Registering fails where the list cannot be read. -/
theorem makes_registering_of_error {e : Error}
    (read : (store.get key s).result.bind (listOf key) = .error e) (d : Descriptor) :
    ((registering d).action key).Makes store s
      [(.get key, .value (store.get key s).result)] (.error e) (store.get key s).state := by
  have listing := makes_list store key s
  rw [read] at listing
  exact (listing.bind_error _).bind_error _

/-- What a command prints, run against a store, or the report of its failure. -/
def conclusion (c : Command) (store : Store σ) (key : String) (s : σ) : Except Report String :=
  c.conclude key ((c.action key).run store s).result

/-- No command gets further than the list. -/
theorem conclusion_of_error {e : Error}
    (read : (store.get key s).result.bind (listOf key) = .error e)
    (c : Command) : c.conclusion store key s = c.conclude key (.error e) := by
  have reading (reads : c.Reads) : c.conclusion store key s = c.conclude key (.error e) := by
    rw [conclusion, (makes_reading reads store key s).result, read]
    rfl
  cases c with
  | register name path description owner =>
    rw [conclusion]
    exact congrArg _ (makes_registering_of_error read ⟨name, path, description, owner⟩).result
  | list | «show» | paths => exact reading trivial

/-- What a command that reads prints if the registry is a list. -/
theorem conclusion_of_reads (reads : c.Reads)
    (read : (store.get key s).result.bind (listOf key) = .ok ds) :
    c.conclusion store key s = c.conclude key (.ok (c.answer ds)) := by
  rw [conclusion, (makes_reading reads store key s).result, read]
  rfl

end Command

end CobolDialects.CommandLine
