import Mathlib.Data.Finset.Card
import MachineCode.Proofs.Session.Lexicon
import MachineCode.Session.Queries

/-!
# A lexicon against its tables

After any questions a cache holds exactly the valid names among those that were asked of it, each
once. So the answers are those of the tables, and the tables are read for a name as long as it has
not been found in them before.
-/

namespace MachineCode

namespace KnownNames

variable {Id : Type} {cache : KnownNames Id} {isValid : Id → Bool} {table : String → Id}
  {asked : List String}

/-- The cache holds the valid names of a list, each once. -/
structure Remembers (cache : KnownNames Id) (isValid : Id → Bool) (table : String → Id)
    (asked : List String) : Prop where
  find?_eq (name : String) : cache.find? name =
    if name ∈ asked ∧ isValid (table name) then some (table name) else none
  size_eq : cache.size = (asked.toFinset.filter fun name => isValid (table name)).card

theorem remembers_empty : ({} : KnownNames Id).Remembers isValid table [] where
  find?_eq name := by simp [find?]
  size_eq := by simp [size]

theorem toFinset_append_singleton (asked : List String) (name : String) :
    (asked ++ [name]).toFinset = Insert.insert name asked.toFinset := by
  ext other
  simp

namespace Remembers

variable (h : cache.Remembers isValid table asked)
include h

theorem ask_eq_of_known {name : String} (hname : name ∈ asked ∧ isValid (table name))
    (other : String → Id) : cache.ask isValid other name = ⟨table name, cache, false⟩ := by
  apply ask_of_known
  rw [h.find?_eq, if_pos hname]

theorem ask_eq_of_new {name : String} (hname : ¬(name ∈ asked ∧ isValid (table name)))
    (other : String → Id) :
    cache.ask isValid other name =
      ⟨other name, if isValid (other name) then cache.insert name (other name) else cache,
        true⟩ := by
  apply ask_of_unknown
  rw [h.find?_eq, if_neg hname]

theorem append_of_mem {name : String} (hmem : name ∈ asked) :
    cache.Remembers isValid table (asked ++ [name]) where
  find?_eq other := by
    have hiff : other ∈ asked ++ [name] ↔ other ∈ asked := by
      constructor
      · intro hother
        rcases List.mem_append.mp hother with hold | hlast
        · exact hold
        · exact List.mem_singleton.mp hlast ▸ hmem
      · exact List.mem_append_left [name]
    simp only [hiff, h.find?_eq]
  size_eq := by
    rw [h.size_eq, toFinset_append_singleton,
      Finset.insert_eq_self.mpr (List.mem_toFinset.mpr hmem)]

theorem append_of_invalid {name : String} (hvalid : ¬ isValid (table name)) :
    cache.Remembers isValid table (asked ++ [name]) where
  find?_eq other := by
    rw [h.find?_eq]
    by_cases heq : other = name
    · subst heq
      simp [hvalid]
    · simp [heq]
  size_eq := by
    rw [toFinset_append_singleton, Finset.filter_insert, if_neg hvalid, h.size_eq]

theorem insert_new {name : String} (hmem : name ∉ asked) (hvalid : isValid (table name)) :
    (cache.insert name (table name)).Remembers isValid table (asked ++ [name]) where
  find?_eq other := by
    rw [find?_insert, h.find?_eq]
    by_cases heq : other = name
    · subst heq
      simp [hvalid]
    · simp [heq]
  size_eq := by
    have hfresh : name ∉ asked.toFinset.filter fun name => isValid (table name) := by
      simp [hmem]
    rw [toFinset_append_singleton, Finset.filter_insert, if_pos hvalid,
      Finset.card_insert_of_notMem hfresh, ← h.size_eq]
    rfl

theorem ask_cache (name : String) :
    (cache.ask isValid table name).cache.Remembers isValid table (asked ++ [name]) := by
  by_cases hknown : name ∈ asked ∧ isValid (table name)
  · rw [h.ask_eq_of_known hknown]
    exact h.append_of_mem hknown.1
  · rw [h.ask_eq_of_new hknown]
    by_cases hvalid : isValid (table name)
    · rw [if_pos hvalid]
      exact h.insert_new (fun hmem => hknown ⟨hmem, hvalid⟩) hvalid
    · rw [if_neg hvalid]
      exact h.append_of_invalid hvalid

theorem find?_eq_some_iff {name : String} {id : Id} :
    cache.find? name = some id ↔ name ∈ asked ∧ table name = id ∧ isValid id := by
  rw [h.find?_eq]
  constructor
  · intro hfound
    split at hfound
    · rename_i hname
      cases hfound
      exact ⟨hname.1, rfl, hname.2⟩
    · cases hfound
  · rintro ⟨hmem, rfl, hvalid⟩
    rw [if_pos ⟨hmem, hvalid⟩]

theorem askAll (names : List String) :
    (cache.askAll isValid table names).Remembers isValid table (asked ++ names) := by
  induction names generalizing cache asked with
  | nil =>
    rw [List.append_nil]
    exact h
  | cons name names ih =>
    have hrest := ih (h.ask_cache name)
    rwa [List.append_assoc] at hrest

end Remembers

end KnownNames

namespace Lexicon

variable {engine : Engine}

theorem after_append (lex : Lexicon) (first second : List Query) :
    lex.after engine (first ++ second) = (lex.after engine first).after engine second :=
  List.foldl_append

section Faithful

variable {lex : Lexicon} (hlex : lex.Faithful engine)
include hlex

theorem Faithful.after (asked : List Query) : (lex.after engine asked).Faithful engine := by
  induction asked generalizing lex with
  | nil => exact hlex
  | cons query asked ih =>
    refine ih ?_
    cases query with
    | register name => exact hlex.register_lexicon name
    | cls name => exact hlex.cls_lexicon name
    | registerName id => exact hlex

theorem Faithful.registerTable_eq : lex.registerTable engine = engine.registers := by
  rw [registerTable, funext hlex.register_value]

theorem Faithful.classTable_eq : lex.classTable engine = engine.classes := by
  rw [classTable, funext hlex.cls_value]

end Faithful

/-- Each cache is the one that its own questions leave; all other questions pass it by. -/
theorem after_eq_askAll (lex : Lexicon) (queries : List Query) :
    lex.after engine queries =
      { registers := lex.registers.askAll RegisterId.isValid engine.registers.find
          (queries.filterMap Query.registerSpelling?)
        classes := lex.classes.askAll ClassId.isValid engine.classes.find
          (queries.filterMap Query.classSpelling?) } := by
  induction queries generalizing lex with
  | nil => rfl
  | cons query queries ih =>
    rw [after, List.foldl_cons]
    cases query <;> exact ih _

theorem mem_filterMap_registerSpelling? {queries : List Query} {name : String} :
    name ∈ queries.filterMap Query.registerSpelling? ↔ .register name ∈ queries := by
  rw [List.mem_filterMap]
  constructor
  · rintro ⟨query, hmem, hname⟩
    cases query <;> cases hname
    exact hmem
  · intro hmem
    exact ⟨_, hmem, rfl⟩

theorem mem_filterMap_classSpelling? {queries : List Query} {name : String} :
    name ∈ queries.filterMap Query.classSpelling? ↔ .cls name ∈ queries := by
  rw [List.mem_filterMap]
  constructor
  · rintro ⟨query, hmem, hname⟩
    cases query <;> cases hname
    exact hmem
  · intro hmem
    exact ⟨_, hmem, rfl⟩

section Asked

variable (engine : Engine) (asked : List Query)

theorem remembers_registers :
    (after engine {} asked).registers.Remembers RegisterId.isValid engine.registers.find
      (asked.filterMap Query.registerSpelling?) := by
  rw [after_eq_askAll]
  exact KnownNames.remembers_empty.askAll _

theorem remembers_classes :
    (after engine {} asked).classes.Remembers ClassId.isValid engine.classes.find
      (asked.filterMap Query.classSpelling?) := by
  rw [after_eq_askAll]
  exact KnownNames.remembers_empty.askAll _

variable {engine asked} {query : Query}

/-- What has been found before is answered without the tables. -/
theorem answer_of_known (hquery : query ∈ asked ∧ query.isKnown engine) (other : Engine) :
    (after engine {} asked).answer other query
      = ⟨query.direct engine, after engine {} asked, []⟩ := by
  cases query with
  | register name =>
    rw [← mem_filterMap_registerSpelling?] at hquery
    simp only [answer, register, (remembers_registers engine asked).ask_eq_of_known hquery]
    rfl
  | cls name =>
    rw [← mem_filterMap_classSpelling?] at hquery
    simp only [answer, cls, (remembers_classes engine asked).ask_eq_of_known hquery]
    rfl
  | registerName id => exact absurd hquery.2 Bool.false_ne_true

/-- All else is answered from the tables at hand, with a record. -/
theorem answer_of_new (hquery : ¬(query ∈ asked ∧ query.isKnown engine)) (other : Engine) :
    ((after engine {} asked).answer other query).value = query.direct other
      ∧ ((after engine {} asked).answer other query).events = query.missEvents other := by
  cases query with
  | register name =>
    rw [← mem_filterMap_registerSpelling?] at hquery
    simp only [answer, register, (remembers_registers engine asked).ask_eq_of_new hquery]
    exact ⟨rfl, rfl⟩
  | cls name =>
    rw [← mem_filterMap_classSpelling?] at hquery
    simp only [answer, cls, (remembers_classes engine asked).ask_eq_of_new hquery]
    exact ⟨rfl, rfl⟩
  | registerName id => exact ⟨rfl, rfl⟩

end Asked

theorem getElem?_answers (lex : Lexicon) (asked : List Query) (query : Query) (rest : List Query) :
    (lex.answers engine (asked ++ query :: rest))[asked.length]?
      = some ((lex.after engine asked).answer engine query) := by
  induction asked generalizing lex with
  | nil => rfl
  | cons first asked ih =>
    rw [List.cons_append, answers, List.length_cons, List.getElem?_cons_succ]
    exact ih _

/-- **A lexicon answers as the tables do.** Whatever was asked of a new lexicon, the next answer is
that of the tables, which are read, with a record, unless the same spelling was found in them
before. Each cache holds the valid names that were asked of it, each once, and no other question
leaves a trace in it. -/
theorem answers_eq_direct (engine : Engine) (asked : List Query) :
    let lex := after engine {} asked
    (∀ query rest,
        (answers engine {} (asked ++ query :: rest))[asked.length]? = some
          { value := query.direct engine
            lexicon := after engine {} (asked ++ [query])
            events :=
              if query ∈ asked ∧ query.isKnown engine then [] else query.missEvents engine }
        ∧ ∀ other, (lex.answer other query).value =
          if query ∈ asked ∧ query.isKnown engine then query.direct engine else query.direct other)
      ∧ (∀ name id, lex.registers.find? name = some id ↔
        .register name ∈ asked ∧ engine.registers.find name = id ∧ id.isValid)
      ∧ (∀ name id, lex.classes.find? name = some id ↔
        .cls name ∈ asked ∧ engine.classes.find name = id ∧ id.isValid)
      ∧ lex.registers.size = ((asked.filterMap Query.registerSpelling?).toFinset.filter
        fun name => (engine.registers.find name).isValid).card
      ∧ lex.classes.size = ((asked.filterMap Query.classSpelling?).toFinset.filter
        fun name => (engine.classes.find name).isValid).card
      ∧ lex =
        { registers := ({} : KnownNames RegisterId).askAll RegisterId.isValid
            engine.registers.find (asked.filterMap Query.registerSpelling?)
          classes := ({} : KnownNames ClassId).askAll ClassId.isValid
            engine.classes.find (asked.filterMap Query.classSpelling?) } := by
  intro lex
  have hregisters := remembers_registers engine asked
  have hclasses := remembers_classes engine asked
  refine ⟨?_, ?_, ?_, hregisters.size_eq, hclasses.size_eq, after_eq_askAll {} asked⟩
  · intro query rest
    have hlast : after engine {} (asked ++ [query]) = (lex.answer engine query).lexicon :=
      after_append {} asked [query]
    rw [getElem?_answers, hlast]
    by_cases hquery : query ∈ asked ∧ query.isKnown engine
    · have hknown := answer_of_known hquery
      simp only [if_pos hquery, lex, hknown, implies_true, and_self]
    · have hnew := answer_of_new hquery
      simp only [if_neg hquery]
      exact ⟨by rw [← (hnew engine).1, ← (hnew engine).2], fun other => (hnew other).1⟩
  · intro name id
    rw [← mem_filterMap_registerSpelling?]
    exact hregisters.find?_eq_some_iff
  · intro name id
    rw [← mem_filterMap_classSpelling?]
    exact hclasses.find?_eq_some_iff

end Lexicon

end MachineCode
