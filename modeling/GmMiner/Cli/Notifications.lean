import GmMiner.Cli.CloudPolicy
import GmMiner.Lib.Trace

/-!
The pull inbox of `gmcli notifications list` (`cli/src/notifications.rs`).

The registry serves the inbox newest first, a page below a cursor at a time. Nothing is taken on
trust: a page that is not in order below its cursor ends the listing (`validatePage`), so every
page that names a further one has a row, and a crawl of all pages ends.
-/

namespace GmMiner.Cli.Notifications

open GmMiner.Lib

def messagesPath : String := "/miners/me/notifications/messages"

/-- The registry's largest page. -/
def maxPageSize : Nat := 100

/-- A listing of all pages stops here. -/
def allCap : Nat := 1000

/-- A row; `body` is what is displayed of it. -/
structure Notification (Body : Type) where
  id : Nat
  body : Body

structure NotificationPage (Body : Type) where
  hotkey : String
  notifications : List (Notification Body)
  nextBefore : Option Nat

inductive Listing
  | page (limit : Nat) (before : Option Nat)
  | all
  deriving DecidableEq, Repr

structure Inbox (Body : Type) where
  hotkey : String
  notifications : List (Notification Body)
  nextBefore : Option Nat

/-- What a page is asked for with. -/
structure PageRequest where
  limit : Nat
  before : Option Nat
  deriving DecidableEq, Repr

def PageRequest.path (request : PageRequest) : String :=
  match request.before with
  | some before => messagesPath ++ "?limit=" ++ toString request.limit ++ "&before=" ++
      toString before
  | none => messagesPath ++ "?limit=" ++ toString request.limit

variable {Body : Type}

/-! ### Pages -/

/-- Rows in descending order below a cursor. -/
def ordered : Option Nat → List (Notification Body) → Bool
  | _, [] => true
  | previous, notification :: rest =>
      (0 < notification.id && notification.id < 2 ^ 63 &&
        previous.all fun id => notification.id < id) && ordered (some notification.id) rest

/-- A cursor names the last row. -/
def validCursor (page : NotificationPage Body) : Bool :=
  page.nextBefore.all fun cursor =>
    0 < cursor && page.notifications.getLast?.any fun last => last.id == cursor

def validatePage (page : NotificationPage Body) (request : PageRequest) :
    Except Error Unit :=
  ensure (!(request.limit < page.notifications.length || !ordered request.before page.notifications ||
      !validCursor page))
    ["invalid notifications page from " ++ messagesPath ++ ": expected at most " ++
      toString request.limit ++ " messages with positive signed BIGINT ids in descending order " ++
      "below the requested cursor, with next_before naming the last message; retry or contact " ++
      "the registry operator"]

/-- What the registry answers to the last of the page requests so far. -/
abbrev Served (Body : Type) :=
  List PageRequest → String → String → Except Error (Response (NotificationPage Body))

/-- The command's client: `isReqwest` is whether an error is one of the HTTP client, and
`errorDetail` what `error_detail` shows of a body. -/
structure InboxClient where
  client : RegistryClient
  isReqwest : Error → Bool
  errorDetail : String → String

namespace InboxClient

variable (inbox : InboxClient) (serve : Served Body)

def network : String := inbox.client.config.resolvedNetwork.asStr

def apiUrl : String := inbox.client.config.apiUrl

/-- `registry_response`. -/
def registryResponse {Doc : Type} (result : Except Error (Response Doc)) :
    Except Error (Response Doc) :=
  match result with
  | .ok response => .ok response
  | .error error =>
      if inbox.isReqwest error then
        context (.error error) ("could not reach the " ++ inbox.network ++ " registry at " ++
          inbox.apiUrl ++ " — check your connection, or pass --network / --api-url to target " ++
          "another registry")
      else .error error

/-- `fetch_page`; `asked` is what was requested before. -/
def fetchPage (asked : List PageRequest) (request : PageRequest) :
    Except Error (NotificationPage Body) := do
  let response ← inbox.registryResponse (inbox.client.get (serve (asked ++ [request])) request.path)
  ensure (response.status.code != 404)
    ["the " ++ inbox.network ++ " registry at " ++ inbox.apiUrl ++
      " does not serve the notifications inbox yet (404 for " ++ messagesPath ++ ")"]
  ensure response.status.isSuccess
    ["reading notifications from the " ++ inbox.network ++ " registry failed (" ++
      response.status.text ++ "): " ++ inbox.errorDetail response.body]
  let page ← context response.json ("parse " ++ messagesPath ++ " response")
  validatePage page request
  return page

end InboxClient

section Spec

variable {before : Option Nat} {rows : List (Notification Body)} {page : NotificationPage Body}
variable {request : PageRequest}

/-- Rows with ids of the registry, each below the one before it and all below a cursor. -/
structure Descending (before : Option Nat) (rows : List (Notification Body)) : Prop where
  order : rows.Pairwise fun row later => later.id < row.id
  positive : ∀ row ∈ rows, 0 < row.id ∧ row.id < 2 ^ 63
  below : ∀ cursor ∈ before, ∀ row ∈ rows, row.id < cursor

/-- The check computes that the ids descend. -/
theorem ordered_iff : ordered before rows = true ↔ Descending before rows := by
  induction rows generalizing before with
  | nil => simp [ordered, Descending.mk]
  | cons row rest ih =>
      simp only [ordered, Bool.and_eq_true, decide_eq_true_eq, Option.all_eq_true, ih]
      constructor
      · rintro ⟨⟨⟨positive, bounded⟩, first⟩, order, bounds, below⟩
        have under := below row.id rfl
        refine ⟨List.pairwise_cons.mpr ⟨under, order⟩,
          List.forall_mem_cons.mpr ⟨⟨positive, bounded⟩, bounds⟩, fun cursor mem => ?_⟩
        have here := first cursor mem
        exact List.forall_mem_cons.mpr ⟨here, fun later inside => (under later inside).trans here⟩
      · rintro ⟨order, bounds, below⟩
        obtain ⟨under, order⟩ := List.pairwise_cons.mp order
        obtain ⟨own, bounds⟩ := List.forall_mem_cons.mp bounds
        refine ⟨⟨own, fun cursor mem => below cursor mem row List.mem_cons_self⟩, order, bounds, ?_⟩
        rintro cursor ⟨⟩
        exact under

theorem validCursor_iff : validCursor page = true ↔
    ∀ cursor ∈ page.nextBefore, 0 < cursor ∧
      page.notifications.getLast?.map Notification.id = some cursor := by
  simp [validCursor, Option.all_eq_true, Option.any_eq_true, Option.map_eq_some_iff]

/-- A page in order below its request's cursor, whose own cursor names its last row. -/
structure Valid (page : NotificationPage Body) (request : PageRequest) : Prop where
  limit : page.notifications.length ≤ request.limit
  rows : Descending request.before page.notifications
  cursor : ∀ cursor ∈ page.nextBefore,
    page.notifications.getLast?.map Notification.id = some cursor

/-- A page passes exactly if it is valid. -/
theorem validatePage_eq_ok : validatePage page request = .ok ⟨⟩ ↔ Valid page request := by
  rw [validatePage, ensure_eq_ok]
  simp only [Bool.not_eq_true', Bool.or_eq_false_iff, Bool.not_eq_false', decide_eq_false_iff_not,
    Nat.not_lt, ordered_iff, validCursor_iff]
  constructor
  · rintro ⟨⟨limit, rows⟩, cursor⟩
    exact ⟨limit, rows, fun next mem => (cursor next mem).2⟩
  · rintro ⟨limit, rows, cursor⟩
    refine ⟨⟨limit, rows⟩, fun next mem => ⟨?_, cursor next mem⟩⟩
    obtain ⟨last, here, rfl⟩ := Option.map_eq_some_iff.mp (cursor next mem)
    exact (rows.positive last (List.mem_of_getLast? here)).1

end Spec

/-! ### The crawl -/

section Crawl

variable {inbox : InboxClient} {serve : Served Body} {asked : List PageRequest}
variable {request : PageRequest} {page : NotificationPage Body} {read : Inbox Body} {cursor : Nat}

/-- A page that is read was validated. -/
theorem valid_of_fetched (fetched : inbox.fetchPage serve asked request = .ok page) :
    Valid page request := by
  unfold InboxClient.fetchPage at fetched
  obtain ⟨response, -, fetched⟩ := bind_eq_ok.mp fetched
  obtain ⟨⟨⟩, -, fetched⟩ := bind_eq_ok.mp fetched
  obtain ⟨⟨⟩, -, fetched⟩ := bind_eq_ok.mp fetched
  obtain ⟨decoded, -, fetched⟩ := bind_eq_ok.mp fetched
  obtain ⟨⟨⟩, valid, same⟩ := bind_eq_ok.mp fetched
  cases same
  exact validatePage_eq_ok.mp valid

/-- The inbox with one more page. -/
def Inbox.extend (read : Inbox Body) (page : NotificationPage Body) : Inbox Body :=
  { read with
    notifications := read.notifications ++ page.notifications
    nextBefore := page.nextBefore }

/-- How many pages the loop may still ask for. -/
def pagesLeft (read : Inbox Body) : Nat :=
  match read.nextBefore with
  | none => 0
  | some _ => allCap + 1 - read.notifications.length

theorem Valid.row_of_cursor (valid : Valid page request) (named : page.nextBefore = some cursor) :
    0 < page.notifications.length := by
  have last := valid.cursor cursor named
  cases rows : page.notifications with
  | nil =>
      rw [rows] at last
      cases last
  | cons row rest => exact Nat.succ_pos _

/-- A page that is read leaves fewer to ask for: it has a row, or names no further page. -/
theorem pagesLeft_extend (named : read.nextBefore = some cursor)
    (room : ¬ allCap ≤ read.notifications.length)
    (fetched : inbox.fetchPage serve asked request = .ok page) :
    pagesLeft (read.extend page) < pagesLeft read := by
  unfold pagesLeft Inbox.extend
  rw [named]
  dsimp only
  cases further : page.nextBefore with
  | none =>
      dsimp only
      omega
  | some next =>
      have row := (valid_of_fetched fetched).row_of_cursor further
      dsimp only
      rw [List.length_append]
      omega

variable (inbox serve)

/-- The loop of `fetch_inbox`, with the pages asked for so far. -/
def readOn (asked : List PageRequest) (read : Inbox Body) : Trace PageRequest Error (Inbox Body) :=
  match _named : read.nextBefore with
  | none => ⟨[], .ok read⟩
  | some cursor =>
      if _room : allCap ≤ read.notifications.length then ⟨[], .ok read⟩
      else
        match _fetched : inbox.fetchPage serve asked ⟨maxPageSize, some cursor⟩ with
        | .error error => ⟨[⟨maxPageSize, some cursor⟩], .error error⟩
        | .ok page =>
            let later := readOn (asked ++ [⟨maxPageSize, some cursor⟩]) (read.extend page)
            ⟨⟨maxPageSize, some cursor⟩ :: later.actions, later.outcome⟩
termination_by pagesLeft read
decreasing_by exact pagesLeft_extend _named _room _fetched

/-- The rows up to the cap; the last one kept is the cursor then. -/
def Inbox.truncate (read : Inbox Body) : Inbox Body :=
  if allCap < read.notifications.length then
    { read with
      notifications := read.notifications.take allCap
      nextBefore := (read.notifications.take allCap).getLast?.map Notification.id }
  else read

def Listing.first : Listing → PageRequest
  | .page limit before => ⟨limit, before⟩
  | .all => ⟨maxPageSize, none⟩

/-- `fetch_inbox`: the pages it asks for, and what it returns. -/
def fetchInbox (listing : Listing) : Trace PageRequest Error (Inbox Body) :=
  match inbox.fetchPage serve [] listing.first with
  | .error error => ⟨[listing.first], .error error⟩
  | .ok first =>
      let read : Inbox Body := ⟨first.hotkey, first.notifications, first.nextBefore⟩
      if listing ≠ .all then ⟨[listing.first], .ok read⟩
      else
        let crawl := readOn inbox serve [listing.first] read
        ⟨listing.first :: crawl.actions, crawl.outcome.map Inbox.truncate⟩

end Crawl

/-! ### What a crawl reads -/

section Reads

variable {inbox : InboxClient} {serve : Served Body} {asked : List PageRequest}
variable {request : PageRequest} {page : NotificationPage Body} {read : Inbox Body} {cursor : Nat}

variable (inbox serve) in
/-- The pages that page requests got, one after the other. -/
inductive Got : List PageRequest → List PageRequest → List (NotificationPage Body) → Prop where
  | nil {asked : List PageRequest} : Got asked [] []
  | cons {asked later : List PageRequest} {request : PageRequest} {page : NotificationPage Body}
      {pages : List (NotificationPage Body)} :
      inbox.fetchPage serve asked request = .ok page →
      Got (asked ++ [request]) later pages → Got asked (request :: later) (page :: pages)

/-- An inbox in order whose cursor names its last row. -/
structure Sound (read : Inbox Body) : Prop where
  rows : Descending none read.notifications
  cursor : ∀ cursor ∈ read.nextBefore,
    read.notifications.getLast?.map Notification.id = some cursor

/-- Rows in order are at least as high as their last. -/
theorem Descending.last_le {before : Option Nat} {rows : List (Notification Body)}
    (descending : Descending before rows) (last : rows.getLast?.map Notification.id = some cursor) :
    ∀ row ∈ rows, cursor ≤ row.id := by
  obtain ⟨final, here, rfl⟩ := Option.map_eq_some_iff.mp last
  obtain ⟨init, rfl⟩ := List.getLast?_eq_some_iff.mp here
  intro row mem
  rcases List.mem_append.mp mem with earlier | own
  · exact ((List.pairwise_append.mp descending.order).2.2 row earlier final
      List.mem_cons_self).le
  · rw [List.mem_singleton.mp own]

/-- A page below the cursor continues an inbox. -/
theorem Sound.extend (sound : Sound read) (named : read.nextBefore = some cursor)
    (valid : Valid page ⟨maxPageSize, some cursor⟩) : Sound (read.extend page) where
  rows := by
    refine ⟨List.pairwise_append.mpr ⟨sound.rows.order, valid.rows.order, ?_⟩, ?_, nofun⟩
    · intro row mem later inside
      exact (valid.rows.below cursor rfl later inside).trans_le
        (sound.rows.last_le (sound.cursor cursor named) row mem)
    · intro row mem
      rcases List.mem_append.mp mem with earlier | later
      · exact sound.rows.positive row earlier
      · exact valid.rows.positive row later
  cursor := by
    intro next mem
    obtain ⟨last, here, rfl⟩ := Option.map_eq_some_iff.mp (valid.cursor next mem)
    change (read.notifications ++ page.notifications).getLast?.map _ = _
    rw [List.getLast?_append, here]
    rfl

/-- What the loop does from an inbox on. -/
structure Crawled (inbox : InboxClient) (serve : Served Body) (asked : List PageRequest)
    (read : Inbox Body) (run : Trace PageRequest Error (Inbox Body)) : Prop where
  requests : run.actions.length ≤ allCap - read.notifications.length
  failed : ∀ before request after error, run.actions = before ++ request :: after →
    inbox.fetchPage serve (asked ++ before) request = .error error → run.outcome = .error error
  read : ∀ final, run.outcome = .ok final → Sound final ∧
    ∃ pages, Got inbox serve asked run.actions pages ∧
      final.notifications = read.notifications ++ pages.flatMap NotificationPage.notifications ∧
      final.nextBefore = (pages.getLast?.map NotificationPage.nextBefore).getD read.nextBefore

theorem Crawled.stop (sound : Sound read) : Crawled inbox serve asked read ⟨[], .ok read⟩ where
  requests := Nat.zero_le _
  failed := fun before request after error actions => by
    cases before <;> cases actions
  read := by
    rintro final ⟨⟩
    exact ⟨sound, [], .nil, (List.append_nil _).symm, rfl⟩

theorem readOn_none (last : read.nextBefore = none) :
    readOn inbox serve asked read = ⟨[], .ok read⟩ := by
  fun_cases readOn inbox serve asked read with
  | case1 => rfl
  | case2 _ named => exact absurd (last.symm.trans named) nofun
  | case3 _ named => exact absurd (last.symm.trans named) nofun
  | case4 _ named => exact absurd (last.symm.trans named) nofun

/-- Reading on is a crawl, whatever the registry serves. -/
theorem readOn_crawled (sound : Sound read) :
    Crawled inbox serve asked read (readOn inbox serve asked read) := by
  fun_induction readOn inbox serve asked read with
  | case1 asked read named => exact .stop sound
  | case2 asked read cursor named full => exact .stop sound
  | case3 asked read cursor named room error failed =>
      refine ⟨?_, ?_, nofun⟩
      · simp only [List.length_singleton]
        omega
      · intro before request after error' actions failed'
        cases before with
        | nil =>
            cases actions
            rw [List.append_nil, failed] at failed'
            cases failed'
            rfl
        | cons first more => cases more <;> cases actions
  -- One more page: what was read stays sound, and the rest is read from its cursor.
  | case4 asked read cursor named room page fetched later ih =>
      have valid := valid_of_fetched fetched
      obtain ⟨requests, failed, reads⟩ := ih (sound.extend named valid)
      refine ⟨?_, ?_, ?_⟩
      · cases further : page.nextBefore with
        | none =>
            have last : later = ⟨[], .ok (read.extend page)⟩ := readOn_none further
            rw [last]
            simp only [List.length_singleton]
            omega
        | some next =>
            have row := valid.row_of_cursor further
            have longer : (read.extend page).notifications.length =
                read.notifications.length + page.notifications.length := List.length_append
            change later.actions.length + 1 ≤ _
            change later.actions.length ≤ _ at requests
            omega
      · intro before request after error actions failed'
        cases before with
        | nil =>
            cases actions
            rw [List.append_nil, fetched] at failed'
            cases failed'
        | cons first more =>
            obtain ⟨same, actions⟩ := List.cons.inj actions
            refine failed more request after error actions ?_
            rwa [List.append_assoc, same]
      · intro final outcome
        obtain ⟨sound', pages, got, rows, further⟩ := reads final outcome
        refine ⟨sound', page :: pages, .cons fetched got, ?_, ?_⟩
        · rw [rows]
          exact List.append_assoc _ _ _
        · rw [further]
          cases pages with
          | nil => rfl
          | cons next pages => rfl

/-! ### A registry that serves an inbox -/

/-- The rows below a cursor. -/
def rowsBelow (cursor : Option Nat) (rows : List (Notification Body)) :
    List (Notification Body) :=
  rows.filter fun row => cursor.all fun id => row.id < id

variable (inbox serve) in
/-- Every page that is read has the first of the rows below its request's cursor, and all of them
if it names no further page. -/
def Serves (rows : List (Notification Body)) : Prop :=
  ∀ asked request page, inbox.fetchPage serve asked request = .ok page →
    page.notifications <+: rowsBelow request.before rows ∧
      (page.nextBefore = none → page.notifications = rowsBelow request.before rows)

/-- An inbox read from the top of some rows, down to the last if there is no cursor. -/
structure FromTop (rows : List (Notification Body)) (read : Inbox Body) : Prop where
  starts : read.notifications <+: rows
  all : read.nextBefore = none → read.notifications = rows

/-- The rows below the last of some rows from the top are those that follow them. -/
theorem rowsBelow_eq_drop {rows front : List (Notification Body)} (descending : Descending none rows)
    (top : front <+: rows) (last : front.getLast?.map Notification.id = some cursor) :
    rowsBelow (some cursor) rows = rows.drop front.length := by
  obtain ⟨back, rfl⟩ := top
  obtain ⟨order, positive, -⟩ := descending
  obtain ⟨frontOrder, -, apart⟩ := List.pairwise_append.mp order
  have front_ : Descending none front :=
    ⟨frontOrder, fun row mem => positive row (List.mem_append_left _ mem), nofun⟩
  obtain ⟨final, here, rfl⟩ := Option.map_eq_some_iff.mp last
  unfold rowsBelow
  rw [List.filter_append, List.drop_left]
  have none_ : front.filter (fun row => (some final.id).all fun id => row.id < id) = [] := by
    refine List.filter_eq_nil_iff.mpr fun row mem => ?_
    have high := front_.last_le last row mem
    simpa using high
  have all_ : back.filter (fun row => (some final.id).all fun id => row.id < id) = back := by
    refine List.filter_eq_self.mpr fun row mem => ?_
    simpa using apart final (List.mem_of_getLast? here) row mem
  rw [none_, all_]
  rfl

/-- One more page goes on from the top. -/
theorem FromTop.extend {rows : List (Notification Body)} (serves : Serves inbox serve rows)
    (descending : Descending none rows) (sound : Sound read) (top : FromTop rows read)
    (named : read.nextBefore = some cursor)
    (fetched : inbox.fetchPage serve asked ⟨maxPageSize, some cursor⟩ = .ok page) :
    FromTop rows (read.extend page) := by
  obtain ⟨starts, all⟩ := serves _ _ _ fetched
  have rest := rowsBelow_eq_drop descending top.starts (sound.cursor cursor named)
  have whole : read.notifications ++ rows.drop read.notifications.length = rows := by
    conv_rhs => rw [← List.take_append_drop read.notifications.length rows]
    rw [← List.prefix_iff_eq_take.mp top.starts]
  rw [rest] at starts all
  constructor
  · obtain ⟨more, same⟩ := starts
    refine ⟨more, ?_⟩
    change (read.notifications ++ page.notifications) ++ more = rows
    rw [List.append_assoc, same, whole]
  · intro last
    change read.notifications ++ page.notifications = rows
    rw [all last, whole]

/-- Reading on to the end reads from the top. -/
theorem readOn_fromTop {rows : List (Notification Body)} (serves : Serves inbox serve rows)
    (descending : Descending none rows) (sound : Sound read) (top : FromTop rows read)
    {final : Inbox Body} (outcome : (readOn inbox serve asked read).outcome = .ok final) :
    FromTop rows final := by
  fun_induction readOn inbox serve asked read with
  | case1 asked read named =>
      cases outcome
      exact top
  | case2 asked read cursor named full =>
      cases outcome
      exact top
  | case3 => cases outcome
  | case4 asked read cursor named room page fetched later ih =>
      exact ih (sound.extend named (valid_of_fetched fetched))
        (top.extend serves descending sound named fetched) outcome

/-! ### All pages -/

/-- What is kept of an inbox that is cut at the cap. -/
structure Kept (read kept : Inbox Body) : Prop where
  capped : kept.notifications.length ≤ allCap
  starts : kept.notifications <+: read.notifications
  sound : Sound kept
  whole : kept.nextBefore = none → kept = read

/-- What is kept is a part of what was read. -/
theorem kept_truncate (sound : Sound read) : Kept read read.truncate := by
  unfold Inbox.truncate
  split
  · rename_i long
    have starts := List.take_prefix allCap read.notifications
    have kept : (read.notifications.take allCap).length = allCap :=
      List.length_take_of_le long.le
    have some_ : read.notifications.take allCap ≠ [] := by
      rw [← List.length_pos_iff, kept]
      decide
    refine ⟨kept.le, starts, ⟨⟨?_, ?_, nofun⟩, fun cursor mem => mem⟩, fun last => ?_⟩
    · exact sound.rows.order.sublist starts.sublist
    · exact fun row mem => sound.rows.positive row (starts.subset mem)
    · rw [List.getLast?_eq_some_getLast some_] at last
      cases last
  · rename_i short
    exact ⟨Nat.not_lt.mp short, List.prefix_rfl, sound, fun _ => rfl⟩

theorem distinct_of_descending {before : Option Nat} {rows : List (Notification Body)}
    (descending : Descending before rows) : (rows.map Notification.id).Nodup := by
  rw [List.nodup_iff_pairwise_ne, List.pairwise_map]
  exact descending.order.imp fun below same => below.ne same.symm

theorem rowsBelow_none (rows : List (Notification Body)) : rowsBelow none rows = rows :=
  List.filter_eq_self.mpr fun _ _ => rfl

/-- What a listing of all pages returns after its requests. -/
structure Returned (inbox : InboxClient) (serve : Served Body) (requests : List PageRequest)
    (read : Inbox Body) : Prop where
  rows : Descending none read.notifications
  distinct : (read.notifications.map Notification.id).Nodup
  capped : read.notifications.length ≤ allCap
  pages : ∃ pages, Got inbox serve [] requests pages ∧
    read.notifications <+: pages.flatMap NotificationPage.notifications ∧
    (read.nextBefore = none → (∃ last ∈ pages.getLast?, last.nextBefore = none) ∧
      read.notifications = pages.flatMap NotificationPage.notifications)
  cursor : ∀ cursor ∈ read.nextBefore,
    read.notifications.getLast?.map Notification.id = some cursor
  continues : ∀ rows, Descending none rows → Serves inbox serve rows →
    FromTop rows read ∧ ∀ cursor ∈ read.nextBefore, ∀ limit next,
      (fetchInbox inbox serve (.page limit (some cursor))).outcome = .ok next →
        next.notifications <+: rows.drop read.notifications.length ∧
          next.notifications.head? = (rows.drop read.notifications.length).head?

/-- What a listing of all pages does. -/
structure AllListed (inbox : InboxClient) (serve : Served Body)
    (run : Trace PageRequest Error (Inbox Body)) : Prop where
  requests : run.actions.length ≤ allCap
  failed : ∀ before request after error, run.actions = before ++ request :: after →
    inbox.fetchPage serve before request = .error error → run.outcome = .error error
  returned : ∀ read, run.outcome = .ok read → Returned inbox serve run.actions read

/-- A page that is read begins with the first of the rows below its cursor, if there is one. -/
theorem head_of_serves {rows : List (Notification Body)} (serves : Serves inbox serve rows)
    (fetched : inbox.fetchPage serve asked request = .ok page) :
    page.notifications.head? = (rowsBelow request.before rows).head? := by
  obtain ⟨starts, all⟩ := serves _ _ _ fetched
  cases further : page.nextBefore with
  | none => rw [all further]
  | some next =>
      -- The page names a further one by its last row, so it has a row.
      have row := (valid_of_fetched fetched).row_of_cursor further
      obtain ⟨later, rest⟩ := starts
      rw [← rest, List.head?_append_of_ne_nil _ (List.ne_nil_of_length_pos row)]

/-- A single page below a cursor continues with exactly the next of the rows that were read. -/
theorem page_continues {rows : List (Notification Body)} (serves : Serves inbox serve rows)
    (descending : Descending none rows) (starts : read.notifications <+: rows)
    (last : read.notifications.getLast?.map Notification.id = some cursor) {limit : Nat}
    {next : Inbox Body}
    (listed : (fetchInbox inbox serve (.page limit (some cursor))).outcome = .ok next) :
    next.notifications <+: rows.drop read.notifications.length ∧
      next.notifications.head? = (rows.drop read.notifications.length).head? := by
  unfold fetchInbox at listed
  split at listed
  · cases listed
  · rename_i first fetched
    rw [if_pos (by simp)] at listed
    cases listed
    rw [← rowsBelow_eq_drop descending starts last]
    exact ⟨(serves _ _ _ fetched).1, head_of_serves serves fetched⟩

variable (inbox serve) in
/-- A listing of all pages ends after at most as many requests as rows it may return; a page that
fails or is not in order fails it, and what it returns is the top of the inbox. -/
theorem fetchInbox_all : AllListed inbox serve (fetchInbox inbox serve .all) := by
  unfold fetchInbox
  cases fetched : inbox.fetchPage serve [] Listing.all.first with
  | error error =>
      have one : 1 ≤ allCap := by decide
      refine ⟨one, ?_, nofun⟩
      intro before request after error' actions failed
      cases before with
      | nil =>
          cases actions
          rw [fetched] at failed
          cases failed
          rfl
      | cons first more => cases more <;> cases actions
  | ok first =>
      have valid := valid_of_fetched fetched
      have sound : Sound ⟨first.hotkey, first.notifications, first.nextBefore⟩ :=
        ⟨valid.rows, valid.cursor⟩
      -- The first page is read apart from the loop; from there on everything is the crawl's.
      have crawled : Crawled inbox serve [Listing.all.first] _ _ := readOn_crawled sound
      dsimp only
      rw [if_neg (by simp)]
      refine ⟨?_, ?_, ?_⟩
      · rw [List.length_cons]
        cases further : first.nextBefore with
        | none =>
            rw [readOn_none rfl]
            exact (by decide : 1 ≤ allCap)
        | some next =>
            have row := valid.row_of_cursor further
            have requests := crawled.requests
            have cap : allCap = 1000 := rfl
            rw [further] at requests
            dsimp only at requests
            omega
      · intro before request after error actions failed
        cases before with
        | nil =>
            cases actions
            rw [fetched] at failed
            cases failed
        | cons one more =>
            obtain ⟨same, actions⟩ := List.cons.inj actions
            have ended := crawled.failed more request after error actions (by rwa [same])
            rw [ended]
            rfl
      · intro read outcome
        cases ended : (readOn inbox serve [Listing.all.first]
            ⟨first.hotkey, first.notifications, first.nextBefore⟩).outcome with
        | error error =>
            rw [ended] at outcome
            cases outcome
        | ok final =>
            rw [ended] at outcome
            cases outcome
            obtain ⟨sound', pages, got, rows, further⟩ := crawled.read final ended
            have kept := kept_truncate sound'
            refine ⟨kept.sound.rows, distinct_of_descending kept.sound.rows, kept.capped,
              ⟨first :: pages, .cons fetched got, ?_, fun last => ?_⟩, kept.sound.cursor, ?_⟩
            · have starts := kept.starts
              rwa [rows] at starts
            · have whole := kept.whole last
              rw [whole] at last ⊢
              refine ⟨⟨pages.getLast?.getD first, List.getLast?_cons, ?_⟩, rows⟩
              rw [last] at further
              cases here : pages.getLast? <;> simpa [here] using further.symm
            · intro rows' descending serves
              have top : FromTop rows' ⟨first.hotkey, first.notifications, first.nextBefore⟩ := by
                obtain ⟨starts, all⟩ := serves _ _ _ fetched
                exact ⟨rowsBelow_none rows' ▸ starts, fun last => rowsBelow_none rows' ▸ all last⟩
              -- Where the registry serves a descending inbox, each page continues the rows
              -- above it.
              have bottom := readOn_fromTop serves descending sound top ended
              have starts := kept.starts.trans bottom.starts
              refine ⟨⟨starts, fun last => ?_⟩, fun cursor mem limit next listed => ?_⟩
              · have whole := kept.whole last
                rw [whole] at last ⊢
                exact bottom.all last
              · exact page_continues serves descending starts (kept.sound.cursor cursor mem) listed

end Reads

end GmMiner.Cli.Notifications
