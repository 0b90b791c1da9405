import GmMiner.Cli.Config
import GmMiner.Lib.Result

/-!
Whether a CVM of some name exists (`find_phala_cvm_app_id_by_name` of `cli/src/deploy/cvm.rs`).

The list is read page by page until the name is found or the last page was read; how many pages
there are the service says anew on each. The source asks for a page once, so what the service
answers is a function of the page. A name is free only after every page was read (`Walked`).
-/

namespace GmMiner.Cli

open GmMiner.Lib

structure PhalaCvmListRow where
  appId : Option String
  name : Option String
  deriving DecidableEq, Repr

structure PhalaCvmList where
  success : Option Bool
  items : Option (List PhalaCvmListRow)
  page : Option Nat
  totalPages : Option Nat
  deriving DecidableEq, Repr

structure PhalaCvmListPage where
  page : Nat
  totalPages : Nat
  appId : Option String
  deriving DecidableEq, Repr

/-- What a run of `phala` leaves. -/
structure PhalaOutput where
  success : Bool
  stdout : Bytes
  stderr : String

/-- An id that is not blank. -/
def PhalaCvmListRow.usableId (row : PhalaCvmListRow) : Option String :=
  (row.appId.map fun id => String.ofList (trim id.toList)).filter (· ≠ "")

/-- One turn of the loop over the rows, with the id so far. -/
def takeRow (appName : String) (appId : Option String) (row : PhalaCvmListRow) :
    Except Error (Option String) :=
  if row.name ≠ some appName then .ok appId
  else
    match row.usableId with
    | none =>
        bail ("phala cvms list --json has matching CVM " ++ "`" ++ appName ++
          "` without a usable `app_id`")
    | some usableId => .ok (appId.or (some usableId))

def invalidPagination (page totalPages : Nat) (items : List PhalaCvmListRow) : Bool :=
  page = 0 ∨ (0 < totalPages ∧ totalPages < page) ∨
    (totalPages = 0 ∧ (page ≠ 1 ∨ items ≠ []))

section Source

variable (decode : Bytes → Option PhalaCvmList) (appName : String)

def parsePhalaCvmListPage (stdout : Bytes) : Except Error PhalaCvmListPage := do
  let listed ← required (decode stdout) ["parse phala cvms list --json output"]
  ensure (listed.success != some false) ["phala cvms list --json reported failure"]
  let page ← required listed.page ["phala cvms list --json output is missing `page`"]
  let totalPages ← required listed.totalPages
    ["phala cvms list --json output is missing `totalPages`"]
  let items ← required listed.items ["phala cvms list --json output is missing `items`"]
  ensure (!invalidPagination page totalPages items)
    ["phala cvms list --json returned invalid pagination (page " ++ toString page ++
      ", totalPages " ++ toString totalPages ++ ")"]
  let appId ← items.foldlM (takeRow appName) none
  return ⟨page, totalPages, appId⟩

/-- `read_phala_cvm_list_page`; `run` is what running `phala` for a page leaves, if it runs. -/
def readPhalaCvmListPage (run : Nat → Except Error PhalaOutput) (page : Nat) :
    Except Error PhalaCvmListPage := do
  let out ← run page
  ensure out.success
    ["could not read Phala CVM list page " ++ toString page ++ ", so `" ++ appName ++
      "` cannot be checked for a name collision: " ++ String.ofList (trim out.stderr.toList)]
  context (parsePhalaCvmListPage decode appName out.stdout)
    ("parse Phala CVM list page " ++ toString page)

end Source

/-! ### The walk over the pages -/

section Walk

variable (fetchPage : Nat → Except Error PhalaCvmListPage)

theorem pages_left {requested next : Nat} (fits : next + 1 < 2 ^ 64)
    (same : ¬ next ≠ requested) : 2 ^ 64 - (next + 1) < 2 ^ 64 - requested := by
  rw [not_not] at same
  omega

/-- The pages that are asked for from one on, and what is returned; a page number has 64 bits. -/
def walkPages (requested : Nat) : List Nat × Except Error (Option String) :=
  match fetchPage requested with
  | .error error => ([requested], .error error)
  | .ok listed =>
      if _apart : listed.page ≠ requested then
        ([requested], bail ("phala cvms list --json returned page " ++ toString listed.page ++
          " when page " ++ toString requested ++ " was requested"))
      else
        match listed.appId with
        | some appId => ([requested], .ok (some appId))
        | none =>
            if listed.totalPages = 0 ∨ listed.totalPages ≤ listed.page then ([requested], .ok none)
            else if _fits : listed.page + 1 < 2 ^ 64 then
              let later := walkPages (listed.page + 1)
              (requested :: later.1, later.2)
            else ([requested], bail "phala cvms pagination overflow")
termination_by 2 ^ 64 - requested
decreasing_by exact pages_left _fits _apart

/-- `find_phala_cvm_app_id_by_name`. -/
def findPhalaCvmAppIdByName : Except Error (Option String) := (walkPages fetchPage 1).2

/-- A page without the name that is not the last. -/
def PassedOver (page : Nat) : Prop :=
  ∃ listed, fetchPage page = .ok listed ∧ listed.page = page ∧ listed.appId = none ∧
    page < listed.totalPages

/-- What the page that is read last leads to. -/
def Concludes (page : Nat) (result : Except Error (Option String)) : Prop :=
  match fetchPage page with
  | .error error => result = .error error
  | .ok listed =>
      if listed.page ≠ page then ∃ error, result = .error error
      else if listed.appId.isSome then result = .ok listed.appId
      else if listed.totalPages ≤ page then result = .ok none
      else ∃ error, result = .error error

variable {fetchPage}

variable (fetchPage) in
/-- The pages up to the last that is read are passed over. -/
theorem walkPages_spec (requested : Nat) :
    ∃ count, (walkPages fetchPage requested).1 = List.range' requested (count + 1) ∧
      (∀ page, requested ≤ page → page < requested + count → PassedOver fetchPage page) ∧
        Concludes fetchPage (requested + count) (walkPages fetchPage requested).2 := by
  fun_induction walkPages fetchPage requested with
  | case1 requested error failed =>
      refine ⟨0, rfl, fun page _ _ => by omega, ?_⟩
      simp only [Concludes, Nat.add_zero, failed]
  | case2 requested listed fetched apart =>
      refine ⟨0, rfl, fun page _ _ => by omega, ?_⟩
      simp only [Concludes, Nat.add_zero, fetched, if_pos apart]
      exact ⟨_, rfl⟩
  | case3 requested listed fetched same appId found =>
      refine ⟨0, rfl, fun page _ _ => by omega, ?_⟩
      simp only [Concludes, Nat.add_zero, fetched, if_neg same, found, Option.isSome_some, if_true]
  | case4 requested listed fetched same free last =>
      have final : listed.totalPages ≤ requested := by omega
      refine ⟨0, rfl, fun page _ _ => by omega, ?_⟩
      simp [Concludes, fetched, same, free, final]
  | case5 requested listed fetched same free more fits later ih =>
      have own : listed.page = requested := not_not.mp same
      obtain ⟨count, pages, before, concludes⟩ := ih
      have shift : listed.page + 1 + count = requested + (count + 1) := by omega
      refine ⟨count + 1, ?_, fun page from_ below => ?_, shift ▸ concludes⟩
      · rw [List.range'_succ, ← own, ← pages]
      · by_cases first : page = requested
        · exact ⟨listed, first ▸ fetched, first ▸ own, free, by omega⟩
        · exact before page (by omega) (by omega)
  | case6 requested listed fetched same free more full =>
      have notLast : ¬ listed.totalPages ≤ requested := by omega
      refine ⟨0, rfl, fun page _ _ => by omega, ?_⟩
      simp only [Concludes, Nat.add_zero, fetched, if_neg same, free, Option.isSome_none,
        Bool.false_eq_true, if_false, if_neg notLast]
      exact ⟨_, rfl⟩

end Walk

/-! ### What the service answered -/

/-- The id of the first row of a name. -/
def firstId (appName : String) (items : List PhalaCvmListRow) : Option String :=
  (items.find? fun row => decide (row.name = some appName)).bind PhalaCvmListRow.usableId

/-- Every row of the name has an id. -/
def HasIds (appName : String) (items : List PhalaCvmListRow) : Prop :=
  ∀ row ∈ items, row.name = some appName → row.usableId.isSome = true

section Answers

variable {decode : Bytes → Option PhalaCvmList} {appName : String}
  {run : Nat → Except Error PhalaOutput}

variable (decode appName run) in
/-- The service answers for a page with that page of so many. -/
def Readable (page totalPages : Nat) (items : List PhalaCvmListRow) : Prop :=
  ∃ out listed, run page = .ok out ∧ out.success = true ∧ decode out.stdout = some listed ∧
    listed.success ≠ some false ∧ listed.page = some page ∧ listed.totalPages = some totalPages ∧
      listed.items = some items ∧ invalidPagination page totalPages items = false ∧
        HasIds appName items

theorem takeRow_other {row : PhalaCvmListRow} (other : row.name ≠ some appName)
    (appId : Option String) : takeRow appName appId row = .ok appId := by
  unfold takeRow
  rw [if_pos other]

theorem takeRow_named {row : PhalaCvmListRow} (named : row.name = some appName)
    {appId next : Option String} :
    takeRow appName appId row = .ok next ↔
      ∃ usableId, row.usableId = some usableId ∧ next = appId.or (some usableId) := by
  unfold takeRow
  rw [if_neg (not_not.mpr named)]
  cases row.usableId <;> simp [bail, eq_comm]

/-- The rows are taken exactly if each one of the name has an id. -/
theorem foldlM_takeRow {items : List PhalaCvmListRow} {appId result : Option String} :
    items.foldlM (takeRow appName) appId = .ok result ↔
      HasIds appName items ∧ result = appId.or (firstId appName items) := by
  induction items generalizing appId with
  | nil =>
      have none : firstId appName [] = Option.none := rfl
      rw [List.foldlM_nil, none, Option.or_none]
      constructor
      · intro returned
        cases returned
        exact ⟨nofun, rfl⟩
      · rintro ⟨-, rfl⟩
        rfl
  | cons row rest ih =>
      rw [List.foldlM_cons, bind_eq_ok]
      by_cases named : row.name = some appName
      · simp only [takeRow_named named, ih, HasIds, List.forall_mem_cons, firstId,
          List.find?_cons, named, decide_true, Option.bind_some, forall_const]
        cases row.usableId with
        | none => simp
        | some usableId => simp
      · simp [takeRow_other named, ih, HasIds, firstId, named]

/-- A page is read exactly if its answer is readable, with the first id on it. -/
theorem read_eq_ok {page : Nat} {listed : PhalaCvmListPage} :
    readPhalaCvmListPage decode appName run page = .ok listed ∧ listed.page = page ↔
      ∃ items, Readable decode appName run page listed.totalPages items ∧
        listed = ⟨page, listed.totalPages, firstId appName items⟩ := by
  unfold readPhalaCvmListPage parsePhalaCvmListPage context
  simp only [bind_eq_ok, required_eq_ok, ensure_eq_ok, mapError_eq_ok, foldlM_takeRow,
    Option.none_or, bne_iff_ne, Bool.not_eq_true']
  constructor
  · rintro ⟨⟨out, ran, -, success, list, decoded, -, reported, own, isPage, totalPages, isTotal, items,
      isItems, -, valid, appId, ⟨ids, rfl⟩, returned⟩, same⟩
    cases returned
    subst same
    exact ⟨items, ⟨out, list, ran, success, decoded, reported, isPage, isTotal, isItems, valid, ids⟩,
      rfl⟩
  · rintro ⟨items, ⟨out, list, ran, success, decoded, reported, isPage, isTotal, isItems, valid, ids⟩,
      same⟩
    rw [same]
    exact ⟨⟨out, ran, ⟨⟩, success, list, decoded, ⟨⟩, reported, page, isPage, _, isTotal, items,
      isItems, ⟨⟩, valid, _, ⟨ids, rfl⟩, rfl⟩, rfl⟩

/-- No row has the name if there is no first id of it. -/
theorem firstId_eq_none {items : List PhalaCvmListRow} (ids : HasIds appName items) :
    firstId appName items = none ↔ ∀ row ∈ items, row.name ≠ some appName := by
  constructor
  · intro none row mem named
    cases first : items.find? fun row => decide (row.name = some appName) with
    | none => simpa [named] using List.find?_eq_none.mp first row mem
    | some other =>
        have usable := ids other (List.mem_of_find?_eq_some first)
          (by simpa using List.find?_some first)
        rw [firstId, first, Option.bind_some] at none
        rw [none] at usable
        cases usable
  · intro free
    have none : (items.find? fun row => decide (row.name = some appName)) = Option.none :=
      List.find?_eq_none.mpr fun row mem => by simpa using free row mem
    rw [firstId, none]
    rfl

theorem firstId_eq_some {items : List PhalaCvmListRow} {id : String}
    (found : firstId appName items = some id) :
    ∃ row ∈ items, row.name = some appName ∧ row.usableId = some id := by
  obtain ⟨row, first, usable⟩ := Option.bind_eq_some_iff.mp found
  exact ⟨row, List.mem_of_find?_eq_some first, by simpa using List.find?_some first, usable⟩

theorem usableId_eq_some {row : PhalaCvmListRow} {id : String} (usable : row.usableId = some id) :
    id ≠ "" ∧ ∃ raw, row.appId = some raw ∧ id = String.ofList (trim raw.toList) := by
  obtain ⟨trimmed, notBlank⟩ := Option.filter_eq_some_iff.mp usable
  obtain ⟨raw, held, same⟩ := Option.map_eq_some_iff.mp trimmed
  exact ⟨by simpa using notBlank, raw, held, same.symm⟩

variable (decode appName run) in
/-- A lookup that reads so many pages. -/
structure Walked (fetches : Nat) (pages : List Nat) (result : Except Error (Option String)) :
    Prop where
  consecutive : pages = List.range' 1 fetches
  /-- The pages before the last do not have the name, and each says that there are more. -/
  before : ∀ page, 1 ≤ page → page < fetches → ∃ totalPages items,
    Readable decode appName run page totalPages items ∧ page < totalPages ∧
      ∀ row ∈ items, row.name ≠ some appName
  /-- Unless it is the first, the last page is not beyond what it says of the pages. -/
  bounded : ∀ totalPages items, Readable decode appName run fetches totalPages items →
    fetches ≤ max 1 totalPages
  free : result = .ok none → ∃ totalPages items,
    Readable decode appName run fetches totalPages items ∧ totalPages ≤ fetches ∧
      ∀ row ∈ items, row.name ≠ some appName
  found : ∀ id, result = .ok (some id) → id ≠ "" ∧ ∃ totalPages items row raw,
    Readable decode appName run fetches totalPages items ∧ row ∈ items ∧
      row.name = some appName ∧ row.appId = some raw ∧ id = String.ofList (trim raw.toList)
  failed : (¬ ∃ totalPages items, Readable decode appName run fetches totalPages items) →
    ∃ error, result = .error error

theorem readable_bounded {page totalPages : Nat} {items : List PhalaCvmListRow}
    (readable : Readable decode appName run page totalPages items) : page ≤ max 1 totalPages := by
  obtain ⟨_, _, -, -, -, -, -, -, -, valid, -⟩ := readable
  simp only [invalidPagination, decide_eq_false_iff_not, not_or, not_and, not_not] at valid
  omega

theorem hasIds_of_readable {page totalPages : Nat} {items : List PhalaCvmListRow}
    (readable : Readable decode appName run page totalPages items) : HasIds appName items := by
  obtain ⟨_, _, -, -, -, -, -, -, -, -, ids⟩ := readable
  exact ids

theorem readable_of_passedOver {page : Nat}
    (passed : PassedOver (readPhalaCvmListPage decode appName run) page) :
    ∃ totalPages items, Readable decode appName run page totalPages items ∧ page < totalPages ∧
      ∀ row ∈ items, row.name ≠ some appName := by
  obtain ⟨listed, fetched, own, free, more⟩ := passed
  obtain ⟨items, readable, same⟩ := read_eq_ok.mp ⟨fetched, own⟩
  rw [same] at free
  exact ⟨_, items, readable, more, (firstId_eq_none (hasIds_of_readable readable)).mp free⟩

/-- The last page is refused, has the name, or is the end of the list. -/
theorem concludes_inv {page : Nat} {result : Except Error (Option String)}
    (concludes : Concludes (readPhalaCvmListPage decode appName run) page result) :
    (∃ error, result = .error error) ∨ ∃ totalPages items,
      Readable decode appName run page totalPages items ∧
        ((∃ id, firstId appName items = some id ∧ result = .ok (some id)) ∨
          firstId appName items = none ∧ totalPages ≤ page ∧ result = .ok none) := by
  unfold Concludes at concludes
  split at concludes
  · exact .inl ⟨_, concludes⟩
  · rename_i listed fetched
    by_cases own : listed.page = page
    · obtain ⟨items, readable, same⟩ := read_eq_ok.mp ⟨fetched, own⟩
      have id : listed.appId = firstId appName items := by rw [same]
      rw [if_neg (not_not.mpr own), id] at concludes
      cases first : firstId appName items with
      | some id =>
          simp only [first, Option.isSome_some, if_true] at concludes
          exact .inr ⟨_, items, readable, .inl ⟨id, first, concludes⟩⟩
      | none =>
          simp only [first, Option.isSome_none, Bool.false_eq_true, if_false] at concludes
          by_cases last : listed.totalPages ≤ page
          · rw [if_pos last] at concludes
            exact .inr ⟨_, items, readable, .inr ⟨first, last, concludes⟩⟩
          · rw [if_neg last] at concludes
            exact .inl concludes
    · rw [if_pos own] at concludes
      exact .inl concludes

/-- The lookup ends, and a name is free only after every page was read without it. -/
theorem findPhalaCvmAppIdByName_walked (decode : Bytes → Option PhalaCvmList) (appName : String)
    (run : Nat → Except Error PhalaOutput) :
    ∃ fetches, 0 < fetches ∧
      Walked decode appName run fetches
        (walkPages (readPhalaCvmListPage decode appName run) 1).1
        (findPhalaCvmAppIdByName (readPhalaCvmListPage decode appName run)) := by
  obtain ⟨count, pages, before, concludes⟩ :=
    walkPages_spec (readPhalaCvmListPage decode appName run) 1
  rw [Nat.add_comm 1 count] at before concludes
  have last := concludes_inv concludes
  refine ⟨count + 1, Nat.succ_pos _, pages, ?_, fun _ _ => readable_bounded, ?_, ?_, ?_⟩
  · exact fun page first below => readable_of_passedOver (before page first below)
  · intro none
    rcases last with ⟨error, failed⟩ | ⟨totalPages, items, readable, ⟨id, -, found⟩ | ended⟩
    · cases none.symm.trans failed
    · cases none.symm.trans found
    · exact ⟨totalPages, items, readable, ended.2.1,
        (firstId_eq_none (hasIds_of_readable readable)).mp ended.1⟩
  · intro id some_
    rcases last with ⟨error, failed⟩ | ⟨totalPages, items, readable, ⟨other, first, found⟩ | ended⟩
    · cases some_.symm.trans failed
    · cases some_.symm.trans found
      obtain ⟨row, mem, named, usable⟩ := firstId_eq_some first
      obtain ⟨notBlank, raw, held, trimmed⟩ := usableId_eq_some usable
      exact ⟨notBlank, totalPages, items, row, raw, readable, mem, named, held, trimmed⟩
    · cases some_.symm.trans ended.2.2
  · intro unread
    rcases last with failed | ⟨totalPages, items, readable, -⟩
    · exact failed
    · exact absurd ⟨totalPages, items, readable⟩ unread

end Answers

/-- An account without a CVM is read in one page of none. -/
def noCvms : Nat → Except Error PhalaOutput := fun _ =>
  .ok ⟨true, asBytes "\x7b\"success\":true,\"page\":1,\"totalPages\":0,\"items\":[]\x7d", ""⟩

/-- Where no pages are counted, one is fetched. -/
theorem noCvms_fetched :
    (walkPages (readPhalaCvmListPage (fun _ => some ⟨some true, some [], some 1, some 0⟩) "vm"
        noCvms) 1).1 = [1] ∧
      readPhalaCvmListPage (fun _ => some ⟨some true, some [], some 1, some 0⟩) "vm" noCvms 1 =
        .ok ⟨1, 0, none⟩ ∧ ¬ [1].length ≤ 0 := by
  have answered : readPhalaCvmListPage (fun _ => some ⟨some true, some [], some 1, some 0⟩) "vm"
      noCvms 1 = .ok ⟨1, 0, none⟩ := rfl
  refine ⟨?_, answered, by decide⟩
  rw [walkPages, answered]
  rfl

end GmMiner.Cli
