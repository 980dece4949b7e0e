import CobolDialects.Proofs.Catalog.Calls

/-!
# The catalog on a store that keeps its key

An operation of the catalog uses one key. On a store that keeps the value of this key it comes to
what the value tells, whatever the store has under other keys and however it has the value; unless
there is a fault below the store.
-/

namespace CobolDialects.Catalog

open Settings

variable {σ : Type} {store : Store σ} {holds : σ → Option Json → Prop} {fault : Error → Prop}
  {s : σ}
  {key : String} {value? : Option Json}

theorem list_gives (keeps : KeepsUnder key store holds fault) (h : holds s value?) :
    ((list key).run store s).Gives fault (listOf key value?) (holds · value?) := by
  have made := makes_list store key s
  rcases keeps.get h with ⟨answer, kept⟩ | ⟨e, faulty, failed⟩
  · exact .inl ⟨made.result.trans (by rw [answer]; rfl), made.state ▸ kept⟩
  · exact .inr ⟨e, faulty, made.result.trans (by rw [failed]; rfl)⟩

theorem find_gives (keeps : KeepsUnder key store holds fault) (h : holds s value?) (name : String) :
    ((find key name).run store s).Gives fault
      ((listOf key value?).map (·.find? (·.name = name))) (holds · value?) := by
  rw [find, Action.run_map]
  exact (list_gives keeps h).map

theorem register_gives (keeps : KeepsUnder key store holds fault) (h : holds s value?)
    {ds : List Descriptor} (stored : listOf key value? = .ok ds) (d : Descriptor) :
    ((register key d).run store s).Gives fault (.ok ())
      (holds · (some (encode (upsert ds d)))) := by
  rcases keeps.get h with ⟨answer, kept⟩ | ⟨e, faulty, failed⟩
  · have read : (store.get key s).result.bind (listOf key) = .ok ds := by rwa [answer]
    have made := makes_register_of_ok read d
    rw [Outcome.Gives, made.result, made.state]
    exact keeps.set kept (storable_encode (upsert ds d))
  · have listing := makes_list store key s
    rw [failed] at listing
    exact .inr ⟨e, faulty, (listing.bind_error _).result⟩

end CobolDialects.Catalog
