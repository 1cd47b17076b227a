import SurrealSchema.Proofs.Catalog
import SurrealSchema.Proofs.Info.Pointers

namespace SurrealSchema

/-!
# Names in responses

A response is made of maps that hold every name once.  From such responses every table gets fields
of different names, since each field bears the name of its entry.  Nothing of the kind holds for
the tables themselves: they bear the names of their entries too, but tables are told apart with
case ignored.
-/

/-! ## Values whose maps hold every name once -/

namespace Value

mutual

/-- Whether no map in a value holds a name twice. -/
def isKeyed : Value → Bool
  | list items => areKeyed items
  | map entries => decide (Entries.names entries).Nodup && areKeyedUnder entries
  | _ => true

/-- Whether no map in the items of a list holds a name twice. -/
def areKeyed : List Value → Bool
  | [] => true
  | item :: items => isKeyed item && areKeyed items

/-- Whether no map under the entries of a map holds a name twice. -/
def areKeyedUnder : List (String × Value) → Bool
  | [] => true
  | (_, value) :: entries => isKeyed value && areKeyedUnder entries

end

theorem nodup_names_of_isKeyed {entries : Entries Value} (h : (map entries).isKeyed = true) :
    (Entries.names entries).Nodup := by
  simp only [isKeyed, Bool.and_eq_true, decide_eq_true_eq] at h
  exact h.1

theorem isKeyed_of_mem {entries : Entries Value} (h : areKeyedUnder entries = true)
    {entry : String × Value} (hentry : entry ∈ entries) : entry.2.isKeyed = true := by
  induction entries with
  | nil => contradiction
  | cons first entries ih =>
      simp only [areKeyedUnder, Bool.and_eq_true] at h
      rcases List.mem_cons.mp hentry with rfl | hlater
      · exact h.1
      · exact ih h.2 hlater

/-- What a map holds is made of such maps again. -/
theorem isKeyed_of_get? {entries : Entries Value} (h : (map entries).isKeyed = true)
    {name : String} {value : Value} (hvalue : Entries.get? name entries = some value) :
    value.isKeyed = true := by
  simp only [isKeyed, Bool.and_eq_true] at h
  exact isKeyed_of_mem h.2 (Entries.mem_of_get? hvalue)

end Value

namespace Info

/-! ## Fields -/

theorem FieldInfo.name_toField (name : String) (info : FieldInfo) :
    (info.toField name).name = name := by
  cases info with
  | statement definition =>
      show (fieldOfStatement name definition).name = name
      unfold fieldOfStatement
      dsimp only
      split <;> rfl
  | properties found => rfl

theorem name_of_field? {conventions : Conventions} {name : String} {raw : Value} {found : Field}
    (h : field? conventions name raw = .ok (some found)) : found.name = name := by
  obtain ⟨isElement, -, h⟩ := bind_eq_ok.mp h
  split at h
  · rw [Except.ok.injEq] at h
    contradiction
  · obtain ⟨info, -, rfl⟩ := Option.map_eq_some_iff.mp (Except.ok.inj h)
    exact info.name_toField name

/-- The fields of a response bear names of its entries, in their order. -/
theorem names_fields {conventions : Conventions} {entries : Entries Value} {found : List Field}
    (h : fields conventions entries = .ok found) :
    (found.map Field.name).Sublist (Entries.names entries) := by
  apply sublist_of_gather _ h
  intro entry field hread
  exact name_of_field? hread

theorem nodup_names_entriesUnder {response : Entries Value}
    (h : (Value.map response).isKeyed = true) (name : String) :
    (Entries.names (entriesUnder name response)).Nodup := by
  unfold entriesUnder
  cases hvalue : Entries.get? name response with
  | none => exact List.nodup_nil
  | some value =>
      cases value with
      | map entries => exact Value.nodup_names_of_isKeyed (Value.isKeyed_of_get? h hvalue)
      | null | bool | integer | float | text | list => exact List.nodup_nil

/-! ## Tables -/

/-- Responses about tables none of which holds a name twice. -/
def AnswersKeyed (responses : Value) : Prop :=
  ∀ name answer, lookUp responses name = .ok answer → answer.isKeyed = true

theorem AnswersKeyed.of_isKeyed {responses : Value} (h : responses.isKeyed = true) :
    AnswersKeyed responses := by
  intro name answer hanswer
  cases responses with
  | map entries =>
      rw [lookUp, Except.ok.injEq] at hanswer
      subst hanswer
      cases hvalue : Entries.get? name entries with
      | none => rfl
      | some value => exact Value.isKeyed_of_get? h hvalue
  | null | bool | integer | float | text | list => contradiction

theorem nodup_fieldNames_of_table? {conventions : Conventions} {responses : Value}
    (hkeyed : AnswersKeyed responses) {name : String} {raw : Value} {table : Table}
    (h : table? conventions responses name raw = .ok (some table)) : table.fieldNames.Nodup := by
  obtain ⟨isUser, -, h⟩ := bind_eq_ok.mp h
  split at h
  · obtain ⟨answer, hanswer, h⟩ := bind_eq_ok.mp h
    split at h
    · obtain ⟨found, hfields, h⟩ := bind_eq_ok.mp h
      rw [Except.ok.injEq, Option.some.injEq] at h
      subst h
      have hresponse := nodup_names_entriesUnder (hkeyed _ _ hanswer) "fields"
      exact (names_fields hfields).nodup hresponse
    · rw [Except.ok.injEq] at h
      contradiction
  · rw [Except.ok.injEq] at h
    contradiction

/-- The tables that responses describe have fields of different names. -/
theorem nodup_fieldNames_of_tablesOf {conventions : Conventions} {database : Database}
    {responses : Value} (hkeyed : AnswersKeyed responses) {tables : List Table}
    (h : tablesOf conventions database responses = .ok tables) :
    ∀ table ∈ tables, table.fieldNames.Nodup := by
  intro table htable
  obtain ⟨⟨name, raw⟩, -, hread⟩ := exists_of_mem_gather h htable
  exact nodup_fieldNames_of_table? hkeyed hread

/-! ## Providers -/

/-- A provider whose answers never hold a name twice. -/
def Provider.IsKeyed (provider : Provider) : Prop :=
  ∀ name answer, provider.table name = .ok answer → answer.isKeyed = true

/-- Every answer that is collected is one of the provider's. -/
theorem Provider.answersKeyed_of_collect {provider : Provider} (hkeyed : provider.IsKeyed)
    {conventions : Conventions} {names : List String} {answers : Entries Value}
    (h : provider.collect conventions names = .ok answers) : AnswersKeyed (.map answers) := by
  intro name answer hanswer
  rw [lookUp, Except.ok.injEq] at hanswer
  subst hanswer
  cases hvalue : Entries.get? name answers with
  | none => rfl
  | some value =>
      obtain ⟨asked, -, hread⟩ := exists_of_mem_gather h (Entries.mem_of_get? hvalue)
      obtain ⟨isUser, -, hread⟩ := bind_eq_ok.mp hread
      split at hread
      · obtain ⟨answer, hanswer, hentry⟩ := bind_eq_ok.mp hread
        rw [Except.ok.injEq, Option.some.injEq, Prod.mk.injEq] at hentry
        rw [Option.getD_some, ← hentry.2]
        exact hkeyed asked answer hanswer
      · rw [Except.ok.injEq] at hread
        contradiction

/-- The tables that a provider describes have fields of different names. -/
theorem nodup_fieldNames_of_fetch {provider : Provider} (hkeyed : provider.IsKeyed)
    {conventions : Conventions} {fetched : Fetched (List Table)}
    (h : fetch conventions provider = .ok fetched) :
    ∀ table ∈ fetched.result, table.fieldNames.Nodup := by
  unfold fetch at h
  dsimp only at h
  split at h
  · contradiction
  · obtain ⟨answers, hanswers, h⟩ := bind_eq_ok.mp h
    obtain ⟨tables, htables, h⟩ := bind_eq_ok.mp h
    rw [← Except.ok.inj h]
    exact nodup_fieldNames_of_tablesOf (provider.answersKeyed_of_collect hkeyed hanswers) htables

end Info
end SurrealSchema
