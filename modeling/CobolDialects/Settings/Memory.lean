import CobolDialects.Settings.Store

/-!
# Settings in memory

A table from keys to values.
-/

namespace CobolDialects.Settings

/-- Settings kept in memory: the members of an object. -/
abbrev Memory := Members

/-- The store on a table in memory. -/
def Memory.store : Store Memory where
  get key table := ⟨.ok (table.find? key), table, []⟩
  set key value table := ⟨.ok (), table.upsert key value, [.storedInMemory key]⟩

end CobolDialects.Settings
