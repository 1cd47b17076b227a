import SurrealSchema.Proofs.Info.Keyed
import SurrealSchema.Proofs.Info.Options

namespace SurrealSchema
namespace Info

/-!
# Asking a provider

A provider is asked about the user tables that its database lists, and from what it answers the same
tables and the same script are made as from the responses themselves.  Of the responses nothing is
read but the entries of user tables, the other sections of the database, and whether it lists any
table: what is said about the store's own tables never matters.

Main statement: `fetch_serving`.
-/

/-! ## Gathering -/

section Gather

variable {α β : Type} {read : α → Except Failure (Option β)} {items : List α}

theorem gather_congr {other : α → Except Failure (Option β)}
    (h : ∀ item ∈ items, read item = other item) : gather read items = gather other items := by
  induction items with
  | nil => rfl
  | cons item items ih =>
      obtain ⟨hfirst, hmore⟩ := List.forall_mem_cons.mp h
      rw [gather, gather, hfirst, ih hmore]

/-- Items that give nothing need not be read. -/
theorem gather_filter {keep : α → Bool}
    (h : ∀ item ∈ items, keep item = false → read item = .ok none) :
    gather read items = gather read (items.filter keep) := by
  induction items with
  | nil => rfl
  | cons item items ih =>
      obtain ⟨hfirst, hmore⟩ := List.forall_mem_cons.mp h
      cases hkeep : keep item with
      | true => rw [List.filter_cons_of_pos hkeep, gather, gather, ih hmore]
      | false =>
          rw [List.filter_cons_of_neg (Bool.eq_false_iff.mp hkeep), gather, hfirst hkeep,
            ih hmore]
          rfl

theorem exists_gather_eq_ok (h : ∀ item ∈ items, ∃ found, read item = .ok found) :
    ∃ found, gather read items = .ok found := by
  induction items with
  | nil => exact ⟨[], rfl⟩
  | cons item items ih =>
      obtain ⟨hfirst, hmore⟩ := List.forall_mem_cons.mp h
      obtain ⟨value, hvalue⟩ := hfirst
      obtain ⟨others, hothers⟩ := ih hmore
      rw [gather, hvalue, hothers]
      cases value with
      | none => exact ⟨_, rfl⟩
      | some value => exact ⟨_, rfl⟩

end Gather

/-! ## What is read of the responses -/

/-- What is answered about a table; nothing is as good as no answer. -/
def answerOf (answers : Entries Value) (name : String) : Value :=
  (Entries.get? name answers).getD .null

theorem lookUp_map (answers : Entries Value) (name : String) :
    lookUp (.map answers) name = .ok (answerOf answers name) :=
  rfl

/-- Whether two database responses say the same, but for what they say about the store's own
tables. -/
structure AgreeOnUsers (conventions : Conventions) (response other : Value) : Prop where
  users : users conventions response = users conventions other
  parts : ∀ part, part ≠ .tables →
    (Database.ofValue response).part part = (Database.ofValue other).part part
  listed : (Database.ofValue response).tables = [] ↔ (Database.ofValue other).tables = []

theorem AgreeOnUsers.refl (conventions : Conventions) (response : Value) :
    AgreeOnUsers conventions response response :=
  ⟨rfl, fun _ _ => rfl, Iff.rfl⟩

/-! ## Changes to the store's own tables -/

theorem lookup_filterMap {α : Type} (value? : Part → Option α) (part : Part) (parts : List Part) :
    (parts.filterMap fun other => (value? other).map fun value => (other, value)).lookup part =
      if part ∈ parts then value? part else none := by
  induction parts with
  | nil => rfl
  | cons first parts ih =>
      by_cases hfirst : part = first
      · subst hfirst
        cases hvalue : value? part with
        | none => simp [hvalue, ih]
        | some value => simp [hvalue]
      · cases hvalue : value? first with
        | none => simp [hvalue, hfirst, ih]
        | some value => simp [hvalue, hfirst, ih, List.lookup_cons, beq_false_of_ne hfirst]

/-- The section of a database response is the map under its name, if there is one. -/
theorem Database.part_ofValue (entries : Entries Value) (part : Part) :
    (ofValue (.map entries)).part part =
      ((Entries.get? part.name entries).bind Value.entries?).getD [] := by
  have hall : part ∈ Part.all := by cases part <;> decide
  unfold Database.part part? ofValue
  rw [lookup_filterMap fun other => (Entries.get? other.name entries).bind Value.entries?,
    if_pos hall]

section Changes

variable {conventions : Conventions}

/-- Responses agree that list the same user tables in the same order, unless just one of them lists
no table at all. -/
theorem agreeOnUsers_put (entries : Entries Value) {tables others : Entries Value}
    (husers : tables.filter (isUser conventions) = others.filter (isUser conventions))
    (hlisted : tables = [] ↔ others = []) :
    AgreeOnUsers conventions (.map (Entries.put "tables" (.map tables) entries))
      (.map (Entries.put "tables" (.map others) entries)) := by
  have htables : ∀ listed : Entries Value,
      (Database.ofValue (.map (Entries.put "tables" (.map listed) entries))).tables = listed := by
    intro listed
    rw [Database.tables, Database.part_ofValue, Part.name, Entries.get?_put, if_pos rfl]
    rfl
  have hnames : ∀ part : Part, part ≠ .tables → "tables" ≠ part.name := by
    intro part hpart
    cases part <;> first | contradiction | decide
  refine ⟨?_, ?_, ?_⟩
  · unfold users
    rw [htables, htables, husers]
  · intro part hpart
    rw [Database.part_ofValue, Database.part_ofValue, Entries.get?_put, Entries.get?_put,
      if_neg (hnames part hpart), if_neg (hnames part hpart)]
  · rw [htables, htables]
    exact hlisted

/-- An entry of a table of the store that is added or changed leaves the user tables as they are. -/
theorem filter_isUser_put {name : String} {value : Value}
    (hsystem : isUser conventions (name, value) = false) (tables : Entries Value) :
    (Entries.put name value tables).filter (isUser conventions) =
      tables.filter (isUser conventions) := by
  induction tables with
  | nil => rw [Entries.put, List.filter_cons_of_neg (Bool.eq_false_iff.mp hsystem)]
  | cons first tables ih =>
      obtain ⟨other, old⟩ := first
      by_cases hname : other = name
      · subst hname
        have hold : isUser conventions (other, old) = false := hsystem
        rw [Entries.put, if_pos rfl, List.filter_cons_of_neg (Bool.eq_false_iff.mp hsystem),
          List.filter_cons_of_neg (Bool.eq_false_iff.mp hold)]
      · rw [Entries.put, if_neg hname, List.filter_cons, List.filter_cons, ih]

/-- So does an entry of a table of the store that is removed. -/
theorem filter_isUser_remove {name : String}
    (hsystem : isUser conventions (name, .null) = false) (tables : Entries Value) :
    (tables.filter fun entry => entry.1 ≠ name).filter (isUser conventions) =
      tables.filter (isUser conventions) := by
  rw [List.filter_filter]
  apply List.filter_congr
  intro entry _
  by_cases hname : entry.1 = name
  · have hentry : isUser conventions entry = false := by
      rw [← hsystem, ← hname]
      rfl
    rw [hentry, Bool.false_and]
  · simp [hname]

end Changes

/-! ## Responses that agree -/

section Agree

variable {conventions : Conventions} {response other : Value} {answers others : Entries Value}

theorem table?_congr {name : String} (h : answerOf answers name = answerOf others name)
    (raw : Value) :
    table? conventions (.map answers) name raw = table? conventions (.map others) name raw := by
  unfold table?
  rw [lookUp_map, lookUp_map, h]

theorem responseOf_congr {name : String} (h : answerOf answers name = answerOf others name) :
    responseOf (.map answers) name = responseOf (.map others) name := by
  unfold responseOf
  rw [lookUp_map, lookUp_map, h]

/-- The tables of a database are those that its user tables describe. -/
theorem tables_eq_gather
    (hprefixes : ∀ value ∈ conventions.systemPrefixes, ∃ text, value = .text text)
    (response : Value) (answers : Entries Value) :
    tables conventions response (.map answers) =
      gather (fun entry => table? conventions (.map answers) entry.1 entry.2)
        (users conventions response) := by
  apply gather_filter
  intro entry _ hother
  have huser := isUserTable_of_prefixes hprefixes entry
  rw [hother] at huser
  dsimp only
  rw [table?, huser]
  rfl

/-- Where fields for the elements of arrays can be told, the tables can be read. -/
theorem exists_tables_eq_ok
    (hprefixes : ∀ value ∈ conventions.systemPrefixes, ∃ text, value = .text text)
    (hmarker : ∃ marker, conventions.elementMarker = .text marker)
    (response : Value) (answers : Entries Value) :
    ∃ described, tables conventions response (.map answers) = .ok described := by
  obtain ⟨marker, hmarker⟩ := hmarker
  have hfields : ∀ entries, ∃ found, fields conventions entries = .ok found := by
    intro entries
    apply exists_gather_eq_ok
    intro entry _
    have helement : conventions.isElementField entry.1 =
        .ok (Conventions.occursIn marker.toList entry.1.toList) := by
      rw [Conventions.isElementField, hmarker]
    dsimp only
    unfold field?
    rw [helement]
    cases Conventions.occursIn marker.toList entry.1.toList <;> exact ⟨_, rfl⟩
  apply exists_gather_eq_ok
  intro entry _
  dsimp only
  unfold table?
  rw [isUserTable_of_prefixes hprefixes entry, lookUp_map]
  cases isUser conventions entry with
  | false => exact ⟨_, rfl⟩
  | true =>
      cases answerOf answers entry.1 with
      | map found =>
          obtain ⟨found, hfound⟩ := hfields (entriesUnder "fields" found)
          simp only [bind, Except.bind, hfound, if_true]
          exact ⟨_, rfl⟩
      | null | bool | integer | float | text | list => exact ⟨_, rfl⟩

variable (hprefixes : ∀ value ∈ conventions.systemPrefixes, ∃ text, value = .text text)
  (h : AgreeOnUsers conventions response other)
  (hanswers : ∀ entry ∈ users conventions response,
    answerOf answers entry.1 = answerOf others entry.1)
include hprefixes h hanswers

/-- Responses that agree on user tables describe the same tables. -/
theorem tables_congr :
    tables conventions response (.map answers) = tables conventions other (.map others) := by
  rw [tables_eq_gather hprefixes, tables_eq_gather hprefixes, ← h.users]
  exact gather_congr fun entry hmem => table?_congr (hanswers entry hmem) entry.2

/-- Responses that agree on user tables give the same scripts. -/
theorem script_congr (options : ScriptOptions) :
    script conventions options response (.map answers) =
      script conventions options other (.map others) := by
  have hparts : databaseParts.flatMap (fun part =>
        databaseLines options.overwrite (Database.ofValue response) part.1 part.2.1 part.2.2) =
      databaseParts.flatMap (fun part =>
        databaseLines options.overwrite (Database.ofValue other) part.1 part.2.1 part.2.2) := by
    have hothers : ∀ part ∈ databaseParts, part.1 ≠ .tables := by decide
    apply List.flatMap_congr
    intro part hpart
    unfold databaseLines
    rw [h.parts part.1 (hothers part hpart)]
  have htables : (users conventions response).flatMap (fun entry =>
        tableLines options entry.1 entry.2 (.map (responseOf (.map answers) entry.1))) =
      (users conventions response).flatMap (fun entry =>
        tableLines options entry.1 entry.2 (.map (responseOf (.map others) entry.1))) := by
    apply List.flatMap_congr
    intro entry hmem
    rw [responseOf_congr (hanswers entry hmem)]
  rw [script_eq_writtenItems hprefixes, script_eq_writtenItems hprefixes]
  unfold writtenItems
  rw [hparts, htables, h.users]

end Agree

/-! ## What is learnt from a provider -/

/-- What a provider answers about the user tables that a database lists. -/
def collected (conventions : Conventions) (response : Value) (answers : Entries Value) :
    Entries Value :=
  (users conventions response).map fun entry => (entry.1, answerOf answers entry.1)

theorem names_collected (conventions : Conventions) (response : Value) (answers : Entries Value) :
    Entries.names (collected conventions response answers) =
      Entries.names (users conventions response) := by
  rw [collected, Entries.names, List.map_map]
  rfl

/-- About a user table the provider's answer is kept. -/
theorem answerOf_collected {conventions : Conventions} {response : Value}
    (answers : Entries Value) {entry : String × Value}
    (hmem : entry ∈ users conventions response) :
    answerOf (collected conventions response answers) entry.1 = answerOf answers entry.1 := by
  have hfound := Entries.get?_map Prod.fst (fun found => answerOf answers found.1)
    (users conventions response) entry.1
  cases hfind : (users conventions response).find? fun found => found.1 = entry.1 with
  | none => simpa using List.find?_eq_none.mp hfind entry hmem
  | some found =>
      have hname : found.1 = entry.1 := by simpa using List.find?_some hfind
      rw [hfind] at hfound
      rw [answerOf, collected, hfound, Option.map_some, Option.getD_some, hname]

section Serving

variable {conventions : Conventions}
  (hprefixes : ∀ value ∈ conventions.systemPrefixes, ∃ text, value = .text text)
include hprefixes

/-- The provider is asked about the user tables, in the order in which they are listed. -/
theorem collect_serving (response : Value) (answers : Entries Value) :
    (Provider.serving response (.map answers)).collect conventions
        (Entries.names (Database.ofValue response).tables) =
      .ok (collected conventions response answers) := by
  have hgather : (Provider.serving response (.map answers)).collect conventions
        (Entries.names (Database.ofValue response).tables) =
      .ok (((Entries.names (Database.ofValue response).tables).filter fun name =>
        isUser conventions (name, .null)).map fun name => (name, answerOf answers name)) := by
    apply gather_eq_ok
    intro name _
    have huser := isUserTable_of_prefixes hprefixes (name, .null)
    dsimp only at huser
    unfold Provider.ask
    rw [huser]
    cases isUser conventions (name, .null) <;> rfl
  rw [hgather, Entries.names, List.filter_map, List.map_map]
  rfl

/-- From the answers that are collected the same tables are made. -/
theorem tables_collected (response : Value) (answers : Entries Value) :
    tables conventions response (.map (collected conventions response answers)) =
      tables conventions response (.map answers) :=
  tables_congr hprefixes (AgreeOnUsers.refl conventions response) fun _ hmem =>
    answerOf_collected answers hmem

/-- From the answers that are collected the same scripts are made. -/
theorem script_collected (options : ScriptOptions) (response : Value) (answers : Entries Value) :
    script conventions options response (.map (collected conventions response answers)) =
      script conventions options response (.map answers) :=
  script_congr hprefixes (AgreeOnUsers.refl conventions response)
    (fun _ hmem => answerOf_collected answers hmem) options

theorem fetch_serving_eq (response : Value) (answers : Entries Value) :
    fetch conventions (.serving response (.map answers)) =
      if (Database.ofValue response).tables = [] then .error .noTables
      else (tables conventions response (.map answers)).map fun described =>
        ⟨described, Entries.names (users conventions response)⟩ := by
  by_cases hlisted : (Database.ofValue response).tables = []
  · rw [if_pos hlisted]
    show (if (Database.ofValue response).tables.isEmpty then _ else _) = _
    rw [if_pos (List.isEmpty_iff.mpr hlisted)]
  · rw [if_neg hlisted]
    show (if (Database.ofValue response).tables.isEmpty then _ else
      (Provider.serving response (.map answers)).collect conventions
        (Entries.names (Database.ofValue response).tables) >>= fun found =>
          tables conventions response (.map found) >>= fun described =>
            .ok (Fetched.mk described (Entries.names found))) = _
    rw [if_neg (mt List.isEmpty_iff.mp hlisted), collect_serving hprefixes]
    show (tables conventions response (.map (collected conventions response answers)) >>=
      fun described =>
        .ok (Fetched.mk described (Entries.names (collected conventions response answers)))) = _
    rw [tables_collected hprefixes, names_collected]
    cases tables conventions response (.map answers) <;> rfl

theorem fetchScript_serving_eq (options : ScriptOptions) (response : Value)
    (answers : Entries Value) :
    fetchScript conventions options (.serving response (.map answers)) =
      (script conventions options response (.map answers)).map fun text =>
        ⟨text, Entries.names (users conventions response)⟩ := by
  show ((Provider.serving response (.map answers)).collect conventions
    (Entries.names (Database.ofValue response).tables) >>= fun found =>
      script conventions options response (.map found) >>= fun text =>
        .ok (Fetched.mk text (Entries.names found))) = _
  rw [collect_serving hprefixes]
  show (script conventions options response (.map (collected conventions response answers)) >>=
    fun text => .ok (Fetched.mk text (Entries.names (collected conventions response answers)))) = _
  rw [script_collected hprefixes, names_collected]
  cases script conventions options response (.map answers) <;> rfl

end Serving

/-- Whether a list of names is what a database response lists of user tables: in its order, and each
name once where it is listed once. -/
structure ListsUsers (conventions : Conventions) (response : Value) (names : List String) :
    Prop where
  sublist : names.Sublist (Entries.names (Database.ofValue response).tables)
  mem_iff : ∀ name, name ∈ names ↔
    name ∈ Entries.names (Database.ofValue response).tables ∧
      conventions.isUserTable name = .ok true
  nodup : response.isKeyed = true → names.Nodup

theorem nodup_names_tables {response : Value} (hkeyed : response.isKeyed = true) :
    (Entries.names (Database.ofValue response).tables).Nodup := by
  cases response with
  | map entries =>
      rw [Database.tables, Database.part_ofValue]
      cases hfound : Entries.get? Part.tables.name entries with
      | none => exact List.nodup_nil
      | some value =>
          cases value with
          | map found => exact Value.nodup_names_of_isKeyed (Value.isKeyed_of_get? hkeyed hfound)
          | null | bool | integer | float | text | list => exact List.nodup_nil
  | null | bool | integer | float | text | list => exact List.nodup_nil

theorem listsUsers_users {conventions : Conventions}
    (hprefixes : ∀ value ∈ conventions.systemPrefixes, ∃ text, value = .text text)
    (response : Value) :
    ListsUsers conventions response (Entries.names (users conventions response)) := by
  have hsublist : (Entries.names (users conventions response)).Sublist
      (Entries.names (Database.ofValue response).tables) := List.filter_sublist.map Prod.fst
  refine ⟨hsublist, ?_, ?_⟩
  · intro name
    have huser := isUserTable_of_prefixes hprefixes (name, .null)
    constructor
    · intro hmem
      obtain ⟨entry, hentry, rfl⟩ := List.mem_map.mp hmem
      obtain ⟨hlisted, hkept⟩ := List.mem_filter.mp hentry
      exact ⟨List.mem_map_of_mem hlisted, by
        rw [isUserTable_of_prefixes hprefixes entry, hkept]⟩
    · rintro ⟨hmem, hkept⟩
      obtain ⟨entry, hentry, rfl⟩ := List.mem_map.mp hmem
      rw [isUserTable_of_prefixes hprefixes entry, Except.ok.injEq] at hkept
      exact List.mem_map_of_mem (List.mem_filter.mpr ⟨hentry, hkept⟩)
  · exact fun hkeyed => hsublist.nodup (nodup_names_tables hkeyed)

/-- **A provider gives what the responses it serves give, and the store's own tables never matter.**
Tables are fetched exactly if the database lists any, and they are those of the responses; a script
is always fetched, and it is that of the responses.  Both times the provider is asked about the user
tables, in their order.  None of it changes with what the responses say about other tables, as long
as the database still lists a table or still lists none. -/
theorem fetch_serving {conventions : Conventions}
    (hprefixes : ∀ value ∈ conventions.systemPrefixes, ∃ text, value = .text text)
    (hmarker : ∃ marker, conventions.elementMarker = .text marker)
    (response : Value) (answers : Entries Value) :
    let provider := Provider.serving response (.map answers)
    let asked := Entries.names (users conventions response)
    ListsUsers conventions response asked ∧
      (∃ described, tables conventions response (.map answers) = .ok described ∧
        fetch conventions provider =
          if (Database.ofValue response).tables = [] then .error .noTables
          else .ok ⟨described, asked⟩) ∧
      (∀ options, ∃ text, script conventions options response (.map answers) = .ok text ∧
        fetchScript conventions options provider = .ok ⟨text, asked⟩) ∧
      ∀ other others, AgreeOnUsers conventions response other →
        (∀ name ∈ asked, answerOf answers name = answerOf others name) →
          let changed := Provider.serving other (.map others)
          tables conventions other (.map others) = tables conventions response (.map answers) ∧
            fetch conventions changed = fetch conventions provider ∧
            ∀ options,
              script conventions options other (.map others) =
                  script conventions options response (.map answers) ∧
                fetchScript conventions options changed =
                  fetchScript conventions options provider := by
  intro provider asked
  obtain ⟨described, hdescribed⟩ := exists_tables_eq_ok hprefixes hmarker response answers
  refine ⟨listsUsers_users hprefixes response, ⟨described, hdescribed, ?_⟩, ?_, ?_⟩
  · rw [fetch_serving_eq hprefixes, hdescribed]
    rfl
  · intro options
    have hscript := script_eq_writtenItems hprefixes options response answers
    refine ⟨_, hscript, ?_⟩
    rw [fetchScript_serving_eq hprefixes, hscript]
    rfl
  · intro other others hagree hanswers changed
    have hsame : ∀ entry ∈ users conventions response,
        answerOf answers entry.1 = answerOf others entry.1 := fun entry hmem =>
      hanswers entry.1 (List.mem_map_of_mem hmem)
    have htables := tables_congr hprefixes hagree hsame
    refine ⟨htables.symm, ?_, fun options => ?_⟩
    · rw [fetch_serving_eq hprefixes, fetch_serving_eq hprefixes, htables, hagree.users]
      simp only [hagree.listed]
    · have hscript := script_congr hprefixes hagree hsame options
      refine ⟨hscript.symm, ?_⟩
      rw [fetchScript_serving_eq hprefixes, fetchScript_serving_eq hprefixes, hscript,
        hagree.users]

/-- A database still gives the table that it gave where of the tables of the store one is removed,
one is changed and one is added. -/
theorem fetch_serving_likes :
    let listed : Entries Value :=
      [("_log", .null), ("likes", .text "DEFINE TABLE likes COMMENT 'Edge type'"), ("_old", .null)]
    let changed := Entries.put "sdb_jobs" .null
      (Entries.put "_log" (.bool true) (listed.filter fun entry => entry.1 ≠ "_old"))
    let response := Value.map (Entries.put "tables" (.map listed) [("functions", .null)])
    let other := Value.map (Entries.put "tables" (.map changed) [("functions", .null)])
    let answers : Entries Value :=
      [("likes", .map [("fields", .map [("since", .text "datetime"), ("tags[*]", .text "int")])])]
    let others := Entries.put "_log" (.map []) answers
    (∀ value ∈ Conventions.standard.systemPrefixes, ∃ text, value = .text text) ∧
      (∃ marker, Conventions.standard.elementMarker = .text marker) ∧
      AgreeOnUsers .standard response other ∧
      ∃ described, tables .standard response (.map answers) = .ok described ∧
        fetch .standard (.serving response (.map answers)) = .ok ⟨described, ["likes"]⟩ ∧
        fetch .standard (.serving other (.map others)) = .ok ⟨described, ["likes"]⟩ := by
  intro listed changed response other answers others
  have hprefixes : ∀ value ∈ Conventions.standard.systemPrefixes, ∃ text, value = .text text :=
    List.forall_mem_cons.mpr ⟨⟨_, rfl⟩, List.forall_mem_singleton.mpr ⟨_, rfl⟩⟩
  have hmarker : ∃ marker, Conventions.standard.elementMarker = .text marker := ⟨_, rfl⟩
  have hagree : AgreeOnUsers .standard response other := by
    apply agreeOnUsers_put
    · rw [filter_isUser_put (by decide +kernel), filter_isUser_put (by decide +kernel),
        filter_isUser_remove (by decide +kernel)]
    · exact iff_of_false (List.cons_ne_nil _ _) (List.cons_ne_nil _ _)
  have hasked : Entries.names (users .standard response) = ["likes"] := by decide +kernel
  have hanswers : ∀ name ∈ Entries.names (users .standard response),
      answerOf answers name = answerOf others name := by
    rw [hasked]
    exact List.forall_mem_singleton.mpr rfl
  obtain ⟨-, ⟨described, hdescribed, hfetch⟩, -, hchange⟩ :=
    fetch_serving hprefixes hmarker response answers
  have hlisted : (Database.ofValue response).tables ≠ [] := List.cons_ne_nil _ _
  rw [if_neg hlisted, hasked] at hfetch
  refine ⟨hprefixes, hmarker, hagree, described, hdescribed, hfetch, ?_⟩
  exact (hchange other others hagree hanswers).2.1.trans hfetch

end Info
end SurrealSchema
