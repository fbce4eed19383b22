import MachineCode.Session.Handover

/-!
# The memory of names

A cache only holds what its table answers. So a look-up has the answer of the table, whatever was
asked before it, and the cache that it leaves is again such a cache.
-/

namespace MachineCode

namespace KnownNames

variable {Id : Type} {cache : KnownNames Id} {isValid : Id → Bool} {table : String → Id}

/-- Every name in the cache has the id that the table gives it, and that id is valid. -/
def Faithful (cache : KnownNames Id) (isValid : Id → Bool) (table : String → Id) : Prop :=
  ∀ name id, cache.find? name = some id → table name = id ∧ isValid id

theorem faithful_empty : ({} : KnownNames Id).Faithful isValid table := by
  intro name id h
  cases h

theorem find?_insert (cache : KnownNames Id) (name other : String) (id : Id) :
    (cache.insert name id).find? other = if other = name then some id else cache.find? other := by
  by_cases heq : other = name
  · rw [if_pos heq, heq]
    simp [insert, find?]
  · have hne : (other == name) = false := beq_false_of_ne heq
    rw [if_neg heq]
    simp [insert, find?, List.lookup_cons, hne]

theorem ask_of_known {name : String} {id : Id} (h : cache.find? name = some id)
    (isValid : Id → Bool) (table : String → Id) :
    cache.ask isValid table name = ⟨id, cache, false⟩ := by
  rw [ask, h]

theorem ask_of_unknown {name : String} (h : cache.find? name = none) (isValid : Id → Bool)
    (table : String → Id) :
    cache.ask isValid table name =
      ⟨table name, if isValid (table name) then cache.insert name (table name) else cache,
        true⟩ := by
  rw [ask, h]

theorem Faithful.insert (hcache : cache.Faithful isValid table) {name : String}
    (hvalid : isValid (table name)) :
    (cache.insert name (table name)).Faithful isValid table := by
  intro other id h
  rw [find?_insert] at h
  split at h
  · rename_i heq
    cases h
    rw [heq]
    exact ⟨rfl, hvalid⟩
  · exact hcache other id h

theorem Faithful.ask_id (hcache : cache.Faithful isValid table) (name : String) :
    (cache.ask isValid table name).id = table name := by
  rw [ask]
  split
  · rename_i id hfound
    exact (hcache name id hfound).1.symm
  · rfl

theorem Faithful.ask_cache (hcache : cache.Faithful isValid table) (name : String) :
    (cache.ask isValid table name).cache.Faithful isValid table := by
  rw [ask]
  split
  · exact hcache
  · by_cases hvalid : isValid (table name)
    · simp only [hvalid, if_true]
      exact hcache.insert hvalid
    · simp only [hvalid]
      exact hcache

end KnownNames

namespace Lexicon

variable {engine : Engine} {lex : Lexicon}

/-- Both caches hold what the tables of the engine answer. -/
structure Faithful (engine : Engine) (lex : Lexicon) : Prop where
  registers : lex.registers.Faithful RegisterId.isValid engine.registers.find
  classes : lex.classes.Faithful ClassId.isValid engine.classes.find

theorem faithful_empty (engine : Engine) : Faithful engine {} :=
  ⟨KnownNames.faithful_empty, KnownNames.faithful_empty⟩

namespace Faithful

variable (hlex : lex.Faithful engine)
include hlex

theorem register_value (name : String) :
    (lex.register engine name).value = engine.registers.find name :=
  hlex.registers.ask_id name

theorem register_lexicon (name : String) : (lex.register engine name).lexicon.Faithful engine :=
  ⟨hlex.registers.ask_cache name, hlex.classes⟩

theorem cls_value (name : String) : (lex.cls engine name).value = engine.classes.find name :=
  hlex.classes.ask_id name

theorem cls_lexicon (name : String) : (lex.cls engine name).lexicon.Faithful engine :=
  ⟨hlex.registers, hlex.classes.ask_cache name⟩

theorem reference_value (ref : RegisterRef) :
    (lex.reference engine ref).value = ref.resolved engine := by
  cases ref with
  | none => rfl
  | name name => exact hlex.register_value name
  | id id => rfl

theorem reference_lexicon (ref : RegisterRef) :
    (lex.reference engine ref).lexicon.Faithful engine := by
  cases ref with
  | none => exact hlex
  | name name => exact hlex.register_lexicon name
  | id id => exact hlex

end Faithful

end Lexicon

end MachineCode
