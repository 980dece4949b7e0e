import CobolDialects.Catalog

/-!
# Scripted stores

A scripted store stands in front of another one. It keeps a record of the calls it receives, and a
script says for each call whether it fails at once, or whether a dialect is registered behind the
caller's back between reading a value and returning it. If that registration fails, so does the
call.
-/

namespace CobolDialects.Settings

/-- A call to a store. -/
inductive Call where
  | get (key : String)
  | set (key : String) (value : Json)

/-- What a script does with one reading call. -/
inductive GetTurn where
  | pass
  | fail (error : Error)
  | afterRegister (key : String) (d : Descriptor)

/-- What a script does with one writing call. -/
inductive SetTurn where
  | pass
  | fail (error : Error)

/-- The calls received, and the turns that are left. -/
structure Script where
  calls : List Call
  onGet : List GetTurn
  onSet : List SetTurn

namespace Script

/-- The turn of the next reading call, and the script behind it. -/
def takeGet (s : Script) (key : String) : GetTurn × Script :=
  let calls := s.calls ++ [.get key]
  match s.onGet with
  | [] => (.pass, { s with calls })
  | turn :: onGet => (turn, { s with calls, onGet })

def takeSet (s : Script) (key : String) (value : Json) : SetTurn × Script :=
  let calls := s.calls ++ [.set key value]
  match s.onSet with
  | [] => (.pass, { s with calls })
  | turn :: onSet => (turn, { s with calls, onSet })

variable {σ : Type}

def get (inner : Store σ) (key : String) (state : Script × σ) :
    Outcome (Script × σ) (Option Json) :=
  let (turn, script) := state.1.takeGet key
  let within (o : Outcome σ (Option Json)) : Outcome (Script × σ) (Option Json) :=
    o.lift fun s => (script, s)
  match turn with
  | .pass => within (inner.get key state.2)
  | .fail error => within (.same state.2 (.error error))
  | .afterRegister catalogKey d =>
    let before := inner.get key state.2
    match before.result with
    | .error _ => within before
    | .ok _ =>
      let registered := (Catalog.register catalogKey d).run inner before.state
      let answer := registered.andThen fun () s => .same s before.result
      within (answer.after before.events)

def set (inner : Store σ) (key : String) (value : Json) (state : Script × σ) :
    Outcome (Script × σ) Unit :=
  let (turn, script) := state.1.takeSet key value
  match turn with
  | .pass => (inner.set key value state.2).lift fun s => (script, s)
  | .fail error => ⟨.error error, (script, state.2), []⟩

/-- The store that follows a script in front of another store. -/
def store (inner : Store σ) : Store (Script × σ) where
  get := get inner
  set := set inner

end Script

end CobolDialects.Settings
