import Mathlib.Data.List.Perm.Subperm
import Realms.Album
import Realms.Proofs.Page.Received
import Realms.Proofs.Store

/-!
The album application as its clients see it, over requests that are handled one after another. Only a call that names
an album changes the store, by one at the key of that album; every other call is refused; and each page that is sent
arrives with the counts of its moment.
-/
namespace Realms

namespace Service

/-- The call that a request brings. -/
def Request.call? (request : Request) : Option Call :=
  if request.method = "POST" then (Call.ofBody request.body).toOption else none

/-- A request of the page at an endpoint, or a call there whose body is accepted. -/
def Request.IsServed (endpoint : String) (request : Request) : Prop :=
  App.barePath request.path = endpoint ∧ (request.method = "GET" ∨
    request.method = "POST" ∧ acceptsBody request.contentType = true ∧ ∃ call, Call.ofBody request.body = .ok call)

/-- A request that was handled, and the stores in front of it and behind it. -/
structure Handled where
  request : Request
  before : Store
  response : Response
  after : Store

namespace App

variable {app : App} {request : Request}

/-- What becomes of requests that are handled one after another. -/
def handleAll (app : App) : Store → List Request → List Handled
  | _, [] => []
  | store, request :: rest =>
    let answer := app.handle store request
    ⟨request, store, answer.2, answer.1⟩ :: app.handleAll answer.1 rest

def storeAfter (app : App) (store : Store) (requests : List Request) : Store :=
  requests.foldl (fun store request => (app.handle store request).1) store

/-- A request that is served gets the page, or its call is answered. -/
theorem handle_served (store : Store) (served : request.IsServed app.endpoint) :
    request.call? = none ∧ app.handle store request = app.pageResponse store ∨
      ∃ call, request.call? = some call ∧ app.handle store request = app.callResponse store call := by
  obtain ⟨place, isGet | ⟨isPost, accepts, call, body⟩⟩ := served
  · exact .inl ⟨by simp [Request.call?, isGet], by simp [handle, place, isGet]⟩
  · refine .inr ⟨call, by simp [Request.call?, isPost, body, Except.toOption], ?_⟩
    simp [handle, place, isPost, post, accepts, body]

end App

end Service

namespace Album

open Json
open Service (App Call Handled Received Request Response)

variable {endpoint : String} {albums : List Album} {application : App} {store : Store} {request : Request}
  {requests : List Request}

/-- The album that a call likes. -/
def likedBy (call : Call) : Option String :=
  if call.id = actionId then call.arguments.head? >>= Value.text? else none

def liked? (request : Request) : Option String := request.call? >>= likedBy

/-- How many of some requests like an album. -/
def likes (album : String) (requests : List Request) : Nat := requests.countP fun request => liked? request = some album

/-- A store after a like. -/
def afterLike (store : Store) (album : String) : Store :=
  store.set (likeKey album) (Store.countValue (Store.nextCount (store.count (likeKey album))))

theorem likeKey_injective : Function.Injective likeKey := by
  intro a b same
  have chars := congrArg String.toList same
  rw [likeKey, likeKey, String.toList_append, String.toList_append] at chars
  exact String.toList_inj.mp (List.append_cancel_left chars)

theorem app_eq_ok (made : app endpoint albums = .ok application) :
    application = ⟨endpoint, ⟨[(actionId, ⟨0, likeAlbum⟩)]⟩, fun store => (store, .ok (page albums store))⟩ :=
  (Except.ok.inj made).symm

theorem pageResponse_eq (made : app endpoint albums = .ok application) (store : Store) :
    application.pageResponse store = (store, .page (page albums store)) := by
  rw [app_eq_ok made]
  rfl

/-- The function likes the album that its first argument names, and fails if it names none. -/
theorem likeAlbum_cases (arguments : List Value) (store : Store) :
    (∃ album, (arguments.head? >>= Value.text?) = some album ∧
      likeAlbum arguments store = (afterLike store album, .value .null)) ∨
    (arguments.head? >>= Value.text?) = none ∧
      likeAlbum arguments store = (store, .error (.invalidArguments "likeAlbum expects an album id")) := by
  rw [likeAlbum]
  cases arguments.head? with
  | none => exact .inr ⟨rfl, rfl⟩
  | some argument =>
      cases argument with
      | text album => exact .inl ⟨album, rfl, rfl⟩
      | _ => exact .inr ⟨rfl, rfl⟩

/-- A call adds a like to the album that it names, and is refused if it names none. -/
theorem callResponse_cases (made : app endpoint albums = .ok application) (store : Store) (call : Call) :
    (∃ album, likedBy call = some album ∧ application.callResponse store call =
      (afterLike store album, .page (page albums (afterLike store album)))) ∨
    likedBy call = none ∧ ∃ message, application.callResponse store call = (store, .failure message) := by
  have registry : application.registry = ⟨[(actionId, ⟨0, likeAlbum⟩)]⟩ := by rw [app_eq_ok made]
  by_cases known : call.id = actionId
  · have resolves : application.registry.resolve call.id = .ok ⟨0, likeAlbum⟩ := by
      simp [registry, Registry.resolve, Registry.find?, known]
    rcases likeAlbum_cases call.arguments store with ⟨album, first, runs⟩ | ⟨first, runs⟩
    · refine .inl ⟨album, by rw [likedBy, if_pos known, first], ?_⟩
      simp [App.callResponse, resolves, runs, App.failureOf, pageResponse_eq made]
    · refine .inr ⟨by rw [likedBy, if_pos known, first],
        (ActionError.invalidArguments "likeAlbum expects an album id").message, ?_⟩
      simp only [App.callResponse, resolves, runs, App.failureOf]
  · refine .inr ⟨by rw [likedBy, if_neg known], (RegistryError.notFound call.id).message, ?_⟩
    have unknown : application.registry.resolve call.id = .error (.notFound call.id) := by
      simp [registry, Registry.resolve, Registry.find?, Ne.symm known]
    simp [App.callResponse, unknown]

/-- All that a request can do. -/
theorem handle_cases (made : app endpoint albums = .ok application) (served : request.IsServed endpoint)
    (store : Store) :
    (request.call? = none ∧ liked? request = none ∧
      application.handle store request = (store, .page (page albums store))) ∨
    (∃ album, request.call?.isSome ∧ liked? request = some album ∧ application.handle store request =
      (afterLike store album, .page (page albums (afterLike store album)))) ∨
    request.call?.isSome ∧ liked? request = none ∧
      ∃ message, application.handle store request = (store, .failure message) := by
  have place : application.endpoint = endpoint := by rw [app_eq_ok made]
  rcases @Service.App.handle_served application request store (place ▸ served) with
    ⟨none, handled⟩ | ⟨call, isCall, handled⟩
  · exact .inl ⟨none, by simp [liked?, none], handled.trans (pageResponse_eq made store)⟩
  · rcases callResponse_cases made store call with ⟨album, likes, response⟩ | ⟨likes, message, response⟩
    · exact .inr (.inl ⟨album, by simp [isCall], by simp [liked?, isCall, likes], handled.trans response⟩)
    · exact .inr (.inr ⟨by simp [isCall], by simp [liked?, isCall, likes], message, handled.trans response⟩)

/-! The counts. -/

/-- All counts of likes have 64 bits, and some more requests do not change that. -/
def Fits (store : Store) (requests : List Request) : Prop :=
  ∀ album, -(Store.countBound : Int) ≤ store.count (likeKey album) ∧
    store.count (likeKey album) + likes album requests < Store.countBound

theorem Fits.isCount (fits : Fits store requests) (album : String) : Store.IsCount (store.count (likeKey album)) := by
  obtain ⟨least, below⟩ := fits album
  exact ⟨least, by omega⟩

theorem likes_cons (album : String) (request : Request) (requests : List Request) :
    likes album (request :: requests) = likes album requests + if liked? request = some album then 1 else 0 := by
  simp [likes, List.countP_cons]

theorem count_afterLike {album : String} (below : store.count (likeKey album) + 1 < Store.countBound)
    (other : String) : (afterLike store album).count (likeKey other) =
      store.count (likeKey other) + if some album = some other then 1 else 0 := by
  rw [afterLike, Store.nextCount_eq below, Store.count_set _ _ _ below]
  by_cases same : other = album
  · subst same
    rw [if_pos rfl, if_pos rfl]
  · have apart : likeKey other ≠ likeKey album := fun equal => same (likeKey_injective equal)
    rw [if_neg apart, if_neg fun equal => same (Option.some.inj equal).symm, Int.add_zero]

/-- One request adds to the count of the album that it likes. -/
theorem handle_count (made : app endpoint albums = .ok application) (served : request.IsServed endpoint)
    (fits : Fits store (request :: requests)) (album : String) :
    (application.handle store request).1.count (likeKey album) =
      store.count (likeKey album) + if liked? request = some album then 1 else 0 := by
  rcases handle_cases made served store with ⟨_, none, handled⟩ | ⟨liked, _, isLike, handled⟩ |
    ⟨_, none, _, handled⟩
  · simp [handled, none]
  · have below := (fits liked).2
    rw [likes_cons, isLike, if_pos rfl] at below
    rw [handled, isLike]
    exact count_afterLike (by omega) album
  · simp [handled, none]

theorem Fits.next (made : app endpoint albums = .ok application) (served : request.IsServed endpoint)
    (fits : Fits store (request :: requests)) : Fits (application.handle store request).1 requests := by
  intro album
  obtain ⟨least, below⟩ := fits album
  rw [likes_cons] at below
  rw [handle_count made served fits]
  by_cases isLike : liked? request = some album
  · rw [if_pos isLike] at below ⊢
    omega
  · rw [if_neg isLike] at below ⊢
    omega

theorem storeAfter_count (made : app endpoint albums = .ok application)
    (served : ∀ request ∈ requests, request.IsServed endpoint) (fits : Fits store requests) (album : String) :
    (application.storeAfter store requests).count (likeKey album) =
      store.count (likeKey album) + likes album requests := by
  induction requests generalizing store with
  | nil => simp [App.storeAfter, likes]
  | cons request rest ih =>
      obtain ⟨first, later⟩ := List.forall_mem_cons.mp served
      have last := ih later (fits.next made first)
      rw [App.storeAfter, List.foldl_cons]
      rw [App.storeAfter] at last
      rw [last, handle_count made first fits, likes_cons]
      split <;> omega

/-- What is not at the key of a liked album stays. -/
theorem storeAfter_get? (made : app endpoint albums = .ok application)
    (served : ∀ request ∈ requests, request.IsServed endpoint) {key : String}
    (other : ∀ album, 0 < likes album requests → key ≠ likeKey album) :
    (application.storeAfter store requests).get? key = store.get? key := by
  induction requests generalizing store with
  | nil => rfl
  | cons request rest ih =>
      obtain ⟨first, later⟩ := List.forall_mem_cons.mp served
      rw [App.storeAfter, List.foldl_cons, ← App.storeAfter, ih later fun album some => other album (by
        rw [likes_cons]
        omega)]
      rcases handle_cases made first store with ⟨_, _, handled⟩ | ⟨album, _, isLike, handled⟩ |
        ⟨_, _, _, handled⟩
      · rw [handled]
      · have apart : key ≠ likeKey album := other album (by
          rw [likes_cons, if_pos isLike]
          omega)
        rw [handled, afterLike, Store.get?_set, if_neg apart]
      · rw [handled]

/-! The page. -/

/-- What a component shows: an album, and how often it was liked. -/
def shownLikes? : Node → Option (String × Int)
  | .clientReference id props =>
    if id = componentId then do
      return (← (Value.object props).get? "albumId" >>= Value.text?,
        ← (Value.object props).get? "likes" >>= Store.countOf)
    else none
  | _ => none

theorem nodes_entry (store : Store) (album : Album) : (entry store album).nodes =
    [entry store album, .element "span" [] [.text album.title], .text album.title,
      .clientReference componentId
        [("albumId", .text album.id), ("likes", Store.countValue (store.count (likeKey album.id)))]] := rfl

theorem nodesOf_entries (store : Store) (albums : List Album) :
    Node.nodesOf (albums.map (entry store)) = albums.flatMap fun album => (entry store album).nodes := by
  induction albums with
  | nil => rfl
  | cons album rest ih => rw [List.map_cons, Node.nodesOf, ih, List.flatMap_cons]

theorem nodes_page (albums : List Album) (store : Store) : (page albums store).nodes =
    [page albums store, .element "h1" [] [.text "Albums"], .text "Albums",
      .element "ul" [] (albums.map (entry store))] ++ albums.flatMap fun album => (entry store album).nodes := by
  rw [← nodesOf_entries]
  simp [page, Node.nodes, Node.nodesOf]

/-- A page shows the count of each album. -/
theorem shownLikes_page (counts : ∀ album, Store.IsCount (store.count (likeKey album))) (albums : List Album) :
    (page albums store).nodes.filterMap shownLikes? =
      albums.map fun album => (album.id, store.count (likeKey album.id)) := by
  have each (album : Album) : (entry store album).nodes.filterMap shownLikes? =
      [(album.id, store.count (likeKey album.id))] := by
    have count := Store.countOf_countValue (counts album.id).2
    rw [nodes_entry]
    simp [List.filterMap_cons, shownLikes?, entry, Value.get?, Value.text?, count]
  rw [nodes_page, List.filterMap_append, List.filterMap_flatMap]
  simp only [each, ← List.map_eq_flatMap]
  rfl

theorem page_plain (albums : List Album) (store : Store) (row : Nat) (props : Props) :
    .lazy row props ∉ (page albums store).nodes := by
  rw [nodes_page]
  simp only [nodes_entry]
  simp [page, entry]

theorem page_firstUses (albums : List Album) (store : Store) : (page albums store).firstUses.length ≤ 1 := by
  have uses : (page albums store).firstUses ⊆ [componentId] := by
    intro id member
    rw [Node.firstUses, List.mem_eraseDups, nodes_page] at member
    simp only [nodes_entry] at member
    simp [List.filterMap_cons, List.filterMap_flatMap, page, entry, Node.id?] at member
    exact List.mem_singleton.mpr member.2
  exact (List.subperm_of_subset (Node.nodup_eraseDups _) uses).length_le

theorem page_isSendable (counts : ∀ album, Store.IsCount (store.count (likeKey album))) (albums : List Album) :
    (page albums store).IsSendable := by
  have entries : ∀ node ∈ albums.map (entry store), node.IsSendable := by
    intro node member
    obtain ⟨album, _, rfl⟩ := List.mem_map.mp member
    have key : IsData [("key", Value.text album.id)] :=
      ⟨.object (by simp [Value.IsWhole.text]), .object (List.pairwise_singleton _ _) (by simp [Value.IsSorted.text])⟩
    have props : IsData
        [("albumId", Value.text album.id), ("likes", Store.countValue (store.count (likeKey album.id)))] := by
      have whole := Store.isWhole_countValue (counts album.id)
      have sorted := Store.isSorted_countValue (store.count (likeKey album.id))
      refine ⟨.object (by simp [Value.IsWhole.text, whole]), .object ?_ (by simp [Value.IsSorted.text, sorted])⟩
      have order : "albumId" < "likes" := by decide
      exact List.pairwise_pair.mpr order
    refine .element "li" key ?_
    simpa using ⟨.element "span" isData_nil (by simpa using .text album.title), .clientReference componentId props⟩
  refine .element "main" isData_nil ?_
  simpa using ⟨.element "h1" isData_nil (by simpa using .text "Albums"), .element "ul" isData_nil entries⟩

theorem levelsOf_countValue (count : Int) : levelsOf (Store.countValue count) = 0 := by
  unfold Store.countValue
  split <;> rfl

theorem levelsOf_page (albums : List Album) (store : Store) : levelsOf (page albums store).value < deepest := by
  have each (album : Album) : levelsOf (entry store album).value = 5 := by
    simp [entry, Node.value, Node.values, propsMember, levelsOf, levelsOfMembers, levelsOfItems, levelsOf_countValue]
  have all : levelsOfItems (Node.values (albums.map (entry store))) ≤ 5 := by
    induction albums with
    | nil => exact Nat.zero_le 5
    | cons album rest ih =>
        rw [List.map_cons, Node.values, levelsOfItems, each]
        exact Nat.max_le.mpr ⟨Nat.le_refl 5, ih⟩
  have list : levelsOf (Node.element "ul" [] (albums.map (entry store))).value ≤ 7 := by
    rw [Node.value]
    split
    · simp [propsMember, levelsOf, levelsOfMembers]
    · simp [propsMember, levelsOf, levelsOfMembers]
      omega
  have title : levelsOf (Node.element "h1" [] [.text "Albums"]).value = 3 := rfl
  rw [page, Node.value]
  simp only [List.isEmpty_cons, Node.values, levelsOf, levelsOfMembers, levelsOfItems, levelsOfMembers_append,
    propsMember, deepest, List.isEmpty_nil, Bool.false_eq_true, ↓reduceIte]
  omega

/-- A client reads the counts of a store out of its page. -/
theorem page_received (counts : ∀ album, Store.IsCount (store.count (likeKey album))) (albums : List Album) :
    ∃ received root, (Received.whole (.page (page albums store))).page = .ok received ∧
      received.resolve = .ok (some root) ∧
        root.nodes.filterMap shownLikes? = albums.map fun album => (album.id, store.count (likeKey album.id)) := by
  have few : (page albums store).firstUses.length < 0xFFFFFFFF :=
    Nat.lt_of_le_of_lt (page_firstUses albums store) (by decide)
  obtain ⟨received, arrives, resolves⟩ := Response.page_received (page_isSendable counts albums)
    (page_plain albums store) few (levelsOf_page albums store)
  exact ⟨received, page albums store, arrives, resolves, shownLikes_page counts albums⟩

/-- A call that is refused: one that likes no album. -/
def isRefused (request : Request) : Bool := request.call?.isSome && (liked? request).isNone

/-- What is answered to a request, and what it leaves. -/
structure Answered (albums : List Album) (handled : Handled) : Prop where
  status : handled.response.status = if isRefused handled.request then 500 else 200
  kept : liked? handled.request = none → handled.after = handled.before
  page : handled.response.status = 200 → ∃ received root, (Received.whole handled.response).page = .ok received ∧
    received.resolve = .ok (some root) ∧
      root.nodes.filterMap shownLikes? = albums.map fun album => (album.id, handled.after.count (likeKey album.id))

theorem handle_answered (made : app endpoint albums = .ok application) (served : request.IsServed endpoint)
    (fits : Fits store (request :: requests)) :
    Answered albums ⟨request, store, (application.handle store request).2, (application.handle store request).1⟩ := by
  have counts := (fits.next made served).isCount
  rcases handle_cases made served store with ⟨noCall, none, handled⟩ | ⟨album, _, isLike, handled⟩ |
    ⟨isCall, none, message, handled⟩
  · rw [handled] at counts ⊢
    exact ⟨by simp [isRefused, noCall]; rfl, fun _ => rfl, fun _ => page_received counts albums⟩
  · rw [handled] at counts ⊢
    exact ⟨by simp [isRefused, isLike]; rfl, fun none => by simp [isLike] at none, fun _ => page_received counts albums⟩
  · rw [handled] at counts ⊢
    exact ⟨by simp [isRefused, isCall, none]; rfl, fun _ => rfl, nofun⟩

theorem handleAll_answered (made : app endpoint albums = .ok application)
    (served : ∀ request ∈ requests, request.IsServed endpoint) (fits : Fits store requests) :
    ∀ handled ∈ application.handleAll store requests, Answered albums handled := by
  induction requests generalizing store with
  | nil => nofun
  | cons request rest ih =>
      obtain ⟨first, later⟩ := List.forall_mem_cons.mp served
      rw [App.handleAll]
      exact List.forall_mem_cons.mpr ⟨handle_answered made first fits, ih later (fits.next made first)⟩

/-- The application over any requests of its page and calls of its function. The count of each album grows by the
calls that like it, and everything else in the store stays. A call that likes no album is refused and changes
nothing, and from every other answer a client reads a page with the counts behind that request. -/
theorem handleAll_likes (made : app endpoint albums = .ok application)
    (served : ∀ request ∈ requests, request.IsServed endpoint) (fits : Fits store requests) :
    (∀ album, (application.storeAfter store requests).count (likeKey album) =
        store.count (likeKey album) + likes album requests) ∧
      (∀ key, (∀ album, 0 < likes album requests → key ≠ likeKey album) →
        (application.storeAfter store requests).get? key = store.get? key) ∧
      ∀ handled ∈ application.handleAll store requests, Answered albums handled :=
  ⟨storeAfter_count made served fits, fun _ => storeAfter_get? made served, handleAll_answered made served fits⟩

/-- A store in which the likes of one album are no number. -/
def oddStore : Store := ⟨[("like-a", .text "many"), ("like-b", .number (.natural 4)), ("title", .null)]⟩

/-- Two albums get a like each, among calls that are refused and requests of the page. -/
def visits : List Request :=
  [⟨"GET", "/p?x", none, []⟩,
    Service.Transport.callRequest "/p" ⟨actionId, [.text "a"]⟩,
    Service.Transport.callRequest "/p" ⟨actionId, [.null, .text "a"]⟩,
    Service.Transport.callRequest "/p" ⟨actionId, [.text "b", .null]⟩,
    Service.Transport.callRequest "/p" ⟨"other", [.text "a"]⟩]

theorem visits_served : ∀ request ∈ visits, request.IsServed "/p" := by
  have calls : ∀ request ∈ visits, Service.App.barePath request.path = "/p" ∧ (request.method = "GET" ∨
      request.method = "POST" ∧ Service.acceptsBody request.contentType = true ∧
        (Call.ofBody request.body).toOption.isSome = true) := by decide +kernel
  intro request member
  obtain ⟨place, isGet | ⟨isPost, accepts, isCall⟩⟩ := calls request member
  · exact ⟨place, .inl isGet⟩
  · cases body : Call.ofBody request.body with
    | ok call => exact ⟨place, .inr ⟨isPost, accepts, call, body⟩⟩
    | error _ =>
        rw [body] at isCall
        cases isCall

theorem visits_heard : visits.map (fun request => (request.call?.isSome, liked? request)) =
    [(false, none), (true, some "a"), (true, none), (true, some "b"), (true, none)] := by
  decide +kernel

theorem likes_visits (album : String) :
    likes album visits = [none, some "a", none, some "b", none].count (some album) := by
  have second := congrArg (List.map Prod.snd) visits_heard
  simp only [List.map_map, Function.comp_def, List.map_cons, List.map_nil] at second
  rw [← second, List.count, List.countP_map, likes]
  exact List.countP_congr fun request _ => by simp

theorem fits_visits : Fits oddStore visits := by
  intro album
  have most := List.count_le_length (a := some album) (l := [none, some "a", none, some "b", none])
  have bounds : 0 ≤ oddStore.count (likeKey album) ∧ oddStore.count (likeKey album) ≤ 4 := by
    rw [Store.count, Store.get?]
    cases found : oddStore.members.find? (·.1 == likeKey album) with
    | none => simp
    | some member =>
        have listed := List.mem_of_find?_eq_some found
        simp only [oddStore, List.mem_cons, List.not_mem_nil, or_false] at listed
        rcases listed with rfl | rfl | rfl <;> simp [Store.countOf, Store.countBound]
  rw [likes_visits, Store.countBound]
  simp only [List.length_cons, List.length_nil] at most
  omega

theorem visits_likes : ∃ application, app "/p" [⟨"b", "B"⟩, ⟨"a", "A"⟩] = .ok application ∧
    (∀ request ∈ visits, request.IsServed "/p") ∧ Fits oddStore visits ∧
      visits.map isRefused = [false, false, true, false, true] ∧
        (application.storeAfter oddStore visits).count (likeKey "a") = 1 ∧
          (application.storeAfter oddStore visits).count (likeKey "b") = 5 ∧
            (application.storeAfter oddStore visits).get? "title" = oddStore.get? "title" ∧
              ∀ handled ∈ application.handleAll oddStore visits, Answered [⟨"b", "B"⟩, ⟨"a", "A"⟩] handled := by
  obtain ⟨counts, others, answers⟩ := handleAll_likes rfl visits_served fits_visits
  refine ⟨_, rfl, visits_served, fits_visits, ?_, ?_, ?_, others "title" ?_, answers⟩
  · have all := congrArg (List.map fun found => found.1 && found.2.isNone) visits_heard
    simp only [List.map_map, Function.comp_def, List.map_cons, List.map_nil] at all
    exact all
  · rw [counts, likes_visits]
    decide +kernel
  · rw [counts, likes_visits]
    decide +kernel
  · intro album _ same
    have front := congrArg (·.toList.head?) same
    simp [likeKey] at front

end Album
end Realms
