import CobolDialects.Proofs.Catalog.Alone

/-!
# Clients that read once

Whatever a store answers, an operation of the catalog reads its key once and writes at most once:
the list that it has read, with a descriptor registered. So in a history of such operations every
value that was written goes back to what its client had read, and the history is faithful where
nobody else writes.
-/

namespace CobolDialects.Catalog

open Settings

variable {σ τ ι α : Type} {key : String} {first : Option Json} {history : List (Exchange ι)}

/-! ## What an action does behind its reading call -/

/-- The action reads the key. Then it is at its end, in a way that `ends` tells from the answer, or
it writes the list that it has read with a descriptor registered, and is at its end then. -/
def ReadsOnce (key : String) (d? : Option Descriptor)
    (ends : Except Error (Option Json) → Except Error α → Prop) (a : Action α) : Prop :=
  ∃ next, a = .get key next ∧ ∀ answer,
    (∃ result, (next answer).quiet = .done result ∧ ends answer result) ∨
    ∃ d found ds go, d? = some d ∧ answer = .ok found ∧ listOf key found = .ok ds ∧
      (next answer).quiet = .set key (encode (upsert ds d)) go ∧
      ∀ reply, ∃ result, (go reply).quiet = .done result

/-- Whatever begins with the list goes on only if there is one. -/
theorem quiet_list_bind (key : String) (f : List Descriptor → Action α) :
    ∃ next, (list key).bind f = .get key next ∧ ∀ answer, (next answer).quiet =
      match answer.bind (listOf key) with
      | .ok ds => (f ds).quiet
      | .error e => .done (.error e) := by
  refine ⟨_, rfl, fun answer => ?_⟩
  match answer with
  | .error e => rfl
  | .ok none => rfl
  | .ok (some v) =>
    cases read : decode key v <;> simp [Except.bind, listOf, read, Action.bind, Action.quiet]

/-- To make something of the list is to read once. -/
theorem readsOnce_of_reading (f : List Descriptor → α) :
    ReadsOnce key none (fun answer result => result = (answer.bind (listOf key)).map f)
      ((list key).bind fun ds => .done (.ok (f ds))) := by
  obtain ⟨next, begins, goes⟩ := quiet_list_bind key fun ds => .done (.ok (f ds))
  refine ⟨next, begins, fun answer => .inl ?_⟩
  rw [goes]
  dsimp only
  cases answer.bind (listOf key) <;> exact ⟨_, rfl, rfl⟩

/-- Behind the list that it has read a registration writes, whatever is made of the reply. -/
theorem readsOnce_of_registering (d : Descriptor) (go : Except Error Unit → Action α)
    (stops : ∀ reply, ∃ result, (go reply).quiet = .done result) :
    ReadsOnce key (some d) (fun _ _ => True)
      ((list key).bind fun ds =>
        .emit (registration ds d) (.set key (encode (upsert ds d)) go)) := by
  obtain ⟨next, begins, goes⟩ := quiet_list_bind key fun ds =>
    .emit (registration ds d) (.set key (encode (upsert ds d)) go)
  refine ⟨next, begins, fun answer => ?_⟩
  rw [goes]
  match answer with
  | .error e => exact .inl ⟨_, rfl, trivial⟩
  | .ok found =>
    cases read : listOf key found with
    | error e =>
      simp only [Except.bind, read]
      exact .inl ⟨_, rfl, trivial⟩
    | ok ds =>
      simp only [Except.bind, read]
      exact .inr ⟨d, found, ds, go, rfl, rfl, read, rfl, stops⟩

theorem readsOnce_register (d : Descriptor) :
    ReadsOnce key (some d) (fun _ _ => True) (register key d) :=
  readsOnce_of_registering d .done fun reply => ⟨reply, rfl⟩

theorem ReadsOnce.mono {d? : Option Descriptor} {a : Action α}
    {ends ends' : Except Error (Option Json) → Except Error α → Prop}
    (h : ReadsOnce key d? ends a) (le : ∀ answer result, ends answer result → ends' answer result) :
    ReadsOnce key d? ends' a := by
  obtain ⟨next, begins, goes⟩ := h
  refine ⟨next, begins, fun answer => (goes answer).imp_left ?_⟩
  exact fun ⟨result, done, ended⟩ => ⟨result, done, le _ _ ended⟩

/-! ## What every call keeps, whatever the store answers -/

/-- Every value that was written is what its client had read, with the client's descriptor
registered. -/
def Derived (key : String) (descriptor? : ι → Option Descriptor) (history : List (Exchange ι)) :
    Prop :=
  ∀ earlier client value reply later, history = earlier ++ .put client value reply :: later →
    ∃ d before found between ds, descriptor? client = some d ∧
      earlier = before ++ .got client (.ok found) :: between ∧
      listOf key found = .ok ds ∧ value = encode (upsert ds d)

/-- How far a client has come: it has yet to read, or it is about to write back the list that it
read, or there is no call left for it. -/
inductive Progress (key : String) (d? : Option Descriptor)
    (ends : Except Error (Option Json) → Except Error α → Prop) (start : Action α)
    (history : List (Exchange ι)) (client : ι) (a : Action α) : Prop
  | fresh (next : a = start) (noRead : client ∉ readers history)
  | writing {before between : List (Exchange ι)} {found : Option Json} {ds : List Descriptor}
    {d : Descriptor} {go : Except Error Unit → Action α} (registers : d? = some d)
    (split : history = before ++ .got client (.ok found) :: between)
    (list : listOf key found = .ok ds) (next : a.quiet = .set key (encode (upsert ds d)) go)
    (stops : ∀ reply, ∃ result, (go reply).quiet = .done result)
  | answered {before between : List (Exchange ι)} {answer : Except Error (Option Json)}
    {result : Except Error α} (split : history = before ++ .got client answer :: between)
    (next : a.quiet = .done result) (ended : ends answer result)
  | written {result : Except Error α} (registers : d?.isSome) (next : a.quiet = .done result)

/-- What every call keeps: each client reads once, and what is written is derived from what was
read. -/
structure Orderly (key : String) (descriptor? : ι → Option Descriptor)
    (ends : ι → Except Error (Option Json) → Except Error α → Prop) (starts : ι → Action α)
    (w : Clients σ ι α) : Prop where
  once : (readers w.history).Nodup
  derived : Derived key descriptor? w.history
  progress : ∀ i, Progress key (descriptor? i) (ends i) (starts i) w.history i (w.actions i)

namespace Derived

variable {descriptor? : ι → Option Descriptor}

theorem of_append {more : List (Exchange ι)} (h : Derived key descriptor? (history ++ more)) :
    Derived key descriptor? history := by
  intro earlier client value reply later split
  exact h earlier client value reply (later ++ more) (by rw [split]; simp)

theorem read (h : Derived key descriptor? history) (client : ι)
    (answer : Except Error (Option Json)) :
    Derived key descriptor? (history ++ [.got client answer]) := by
  intro earlier i value reply later split
  rcases split_concat split with ⟨-, absurd⟩ | ⟨front, split⟩
  · cases absurd
  · exact h earlier i value reply front split

theorem write {client : ι} {d : Descriptor} {before between : List (Exchange ι)}
    {found : Option Json} {ds : List Descriptor} (h : Derived key descriptor? history)
    (registers : descriptor? client = some d)
    (split : history = before ++ .got client (.ok found) :: between)
    (list : listOf key found = .ok ds) (reply : Except Error Unit) :
    Derived key descriptor? (history ++ [.put client (encode (upsert ds d)) reply]) := by
  intro earlier i value result later here
  rcases split_concat here with ⟨rfl, same⟩ | ⟨front, here⟩
  · obtain ⟨rfl, rfl, rfl⟩ := Exchange.put.inj same
    exact ⟨d, before, found, between, ds, registers, split, list, rfl⟩
  · exact h earlier i value result front here

/-- Without the writes that have not been carried out every client wrote what it had read of the
stored list. -/
theorem faithful {landed : Exchange ι → Bool} (h : Derived key descriptor? history)
    (alone : Alone first landed history) :
    Faithful key first (fun i => (descriptor? i).getD default) (history.filter landed) := by
  intro earlier client value reply later split
  obtain ⟨front, back, rfl, rfl, rest⟩ := List.filter_eq_append_iff.mp split
  obtain ⟨skipped, behind, rfl, lost, -, -⟩ := List.filter_eq_cons_iff.mp rest
  -- The call that read the list is kept, since whatever succeeds has been carried out.
  rw [← List.append_assoc] at h alone
  obtain ⟨d, before, found, between, ds, registers, same, list, rfl⟩ :=
    h _ client value reply behind rfl
  have none : skipped.filter landed = [] := List.filter_eq_nil_iff.mpr lost
  rw [same, List.append_assoc, List.cons_append] at alone
  have read : found = held first (before.filter landed) := alone.read before client _ _ rfl
  have carried : landed (.got client (.ok found)) :=
    alone.carried _ (List.mem_append_right _ List.mem_cons_self) rfl
  refine ⟨before.filter landed, between.filter landed, ds, ?_, ?_, ?_⟩
  · calc front.filter landed
      _ = (front ++ skipped).filter landed := by rw [List.filter_append, none, List.append_nil]
      _ = _ := by rw [same, List.filter_append, List.filter_cons_of_pos carried, read]
  · rw [← read, list]
  · simp only [registers, Option.getD_some]

end Derived

/-- The calls of others leave a client where it is. -/
theorem Progress.append {d? : Option Descriptor} {start a : Action α} {client : ι}
    {ends : Except Error (Option Json) → Except Error α → Prop}
    (h : Progress key d? ends start history client a) {e : Exchange ι}
    (other : e.reader? ≠ some client) : Progress key d? ends start (history ++ [e]) client a := by
  cases h with
  | fresh next noRead =>
    refine .fresh next fun there => ?_
    rcases List.mem_append.mp (readers_append history [e] ▸ there) with there | there
    · exact noRead there
    · obtain ⟨e', inside, reads⟩ := List.mem_filterMap.mp there
      obtain rfl := List.mem_singleton.mp inside
      exact other reads
  | writing registers split list next stops =>
    exact .writing registers (by rw [split, List.append_assoc, List.cons_append]) list next stops
  | answered split next ended =>
    exact .answered (by rw [split, List.append_assoc, List.cons_append]) next ended
  | written registers next => exact .written registers next

section Runs

variable {descriptor? : ι → Option Descriptor} {starts : ι → Action α}
  {ends : ι → Except Error (Option Json) → Except Error α → Prop}

theorem orderly_first (s : σ) : Orderly key descriptor? ends starts ⟨s, starts, []⟩ where
  once := List.nodup_nil
  derived earlier _ _ _ _ split := by simp at split
  progress _ := .fresh rfl List.not_mem_nil

variable [DecidableEq ι]

/-- A call of one client takes that client further, and leaves the others where they are. -/
theorem Orderly.progress_behind {w : Clients σ ι α} (h : Orderly key descriptor? ends starts w)
    {client : ι} {e : Exchange ι} (own : ∀ i, e.reader? = some i → i = client) {next : Action α}
    (further : Progress key (descriptor? client) (ends client) (starts client) (w.history ++ [e])
      client next) (i : ι) :
    Progress key (descriptor? i) (ends i) (starts i) (w.history ++ [e]) i
      (if i = client then next else w.actions i) := by
  split_ifs with mine
  · exact mine ▸ further
  · exact (h.progress i).append fun reads => mine (own i reads)

theorem Orderly.advance (reads : ∀ i, ReadsOnce key (descriptor? i) (ends i) (starts i))
    {w : Clients σ ι α} (h : Orderly key descriptor? ends starts w) (store : Store σ) (client : ι) :
    Orderly key descriptor? ends starts (w.advance store client) := by
  cases h.progress client with
  | fresh next noRead =>
    obtain ⟨go, begins, behind⟩ := reads client
    have step : (w.actions client).step? client store w.state =
        some (.got client (store.get key w.state).result, go (store.get key w.state).result,
          (store.get key w.state).state) := by
      rw [next, begins]
      rfl
    rw [Clients.advance_of_step? step]
    have once : (readers (w.history ++ [.got client (store.get key w.state).result])).Nodup := by
      simpa [List.nodup_append, h.once] using fun i there (here : i = client) =>
        noRead (here ▸ there)
    refine ⟨once, h.derived.read _ _, h.progress_behind (by simp [Exchange.reader?]) ?_⟩
    rcases behind (store.get key w.state).result with
      ⟨result, done, ended⟩ | ⟨d, found, ds, goOn, registers, read, list, writes, stops⟩
    · exact .answered rfl done ended
    · rw [read] at writes ⊢
      exact .writing registers rfl list writes stops
  | @writing before between found ds d go registers split list next stops =>
    have step : (w.actions client).step? client store w.state =
        some (.put client (encode (upsert ds d))
            (store.set key (encode (upsert ds d)) w.state).result,
          go (store.set key (encode (upsert ds d)) w.state).result,
          (store.set key (encode (upsert ds d)) w.state).state) := by
      rw [← Action.step?_quiet, next]
      rfl
    rw [Clients.advance_of_step? step]
    refine ⟨by simpa using h.once, h.derived.write registers split list _,
      h.progress_behind (by simp [Exchange.reader?]) ?_⟩
    obtain ⟨result, done⟩ := stops (store.set key (encode (upsert ds d)) w.state).result
    exact .written (by rw [registers]; rfl) done
  | answered _ next | written _ next =>
    have stays : w.advance store client = w := by
      rw [Clients.advance, ← Action.step?_quiet, next]
      rfl
    rw [stays]
    exact h

theorem Orderly.play (reads : ∀ i, ReadsOnce key (descriptor? i) (ends i) (starts i))
    {w : Clients σ ι α} (h : Orderly key descriptor? ends starts w) (stores : τ → Store σ)
    (turns : List (τ × ι)) : Orderly key descriptor? ends starts (w.play stores turns) := by
  induction turns generalizing w with
  | nil => exact h
  | cons turn rest ih => exact ih (h.advance reads (stores turn.1) turn.2)

end Runs

end CobolDialects.Catalog
