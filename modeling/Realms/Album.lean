import Realms.Build
import Realms.Service.App

/-!
The album application: a page of albums, a component that likes one of them, and the function behind
it. Its sources are built like those of any project.
-/
namespace Realms

structure Album where
  id : String
  title : String
deriving DecidableEq, Repr, Inhabited

namespace Album

open Realms.Json
open Realms.Service

def pageSource : String :=
  "import \x7b Like \x7d from \"./components/like.js\";\n" ++
    "import \x7b getLikes \x7d from \"./state.js\";\n" ++
    "import \x7b albums \x7d from \"./data/albums.js\";\n" ++
    "\n" ++
    "export function App() \x7b\n" ++
    "  return (\n" ++
    "    <main>\n" ++
    "      <h1>Albums</h1>\n" ++
    "      <ul>\n" ++
    "        \x7balbums.map((album) => (\n" ++
    "          <li key=\x7balbum.id\x7d>\n" ++
    "            <span>\x7balbum.title\x7d</span>\n" ++
    "            <Like albumId=\x7balbum.id\x7d likes=\x7bgetLikes(\x60like-$\x7balbum.id\x7d\x60)\x7d />\n" ++
    "          </li>\n" ++
    "        ))\x7d\n" ++
    "      </ul>\n" ++
    "    </main>\n" ++
    "  );\n" ++
    "\x7d\n"

def stateSource : String :=
  "const likes = new Map();\n" ++
    "\n" ++
    "export function getLikes(key) \x7b\n" ++
    "  return likes.get(key) ?? 0;\n" ++
    "\x7d\n" ++
    "\n" ++
    "export function setLikes(key, value) \x7b\n" ++
    "  likes.set(key, value);\n" ++
    "\x7d\n"

def albumsSource : String :=
  "export const albums = [\n" ++
    "  \x7b id: \"a1\", title: \"Blue Train\" \x7d,\n" ++
    "  \x7b id: \"a2\", title: \"Kind of Blue\" \x7d,\n" ++
    "  \x7b id: \"a3\", title: \"Mingus Ah Um\" \x7d,\n" ++
    "];\n"

def formatSource : String :=
  "export function formatCount(n) \x7b\n" ++
    "  return n === 1 ? \"1 like\" : \x60$\x7bn\x7d likes\x60;\n" ++
    "\x7d\n"

def likeSource : String :=
  "\"use client\";\n" ++
    "\n" ++
    "import \x7b likeAlbum \x7d from \"../actions/album.js\";\n" ++
    "import \x7b formatCount \x7d from \"../lib/format.js\";\n" ++
    "\n" ++
    "export function Like(\x7b albumId, likes \x7d) \x7b\n" ++
    "  return <button onClick=\x7b() => likeAlbum(albumId)\x7d>♥ \x7bformatCount(likes)\x7d</button>;\n" ++
    "\x7d\n"

def actionsSource : String :=
  "\"use server\";\n" ++
    "\n" ++
    "import \x7b getLikes, setLikes \x7d from \"../state.js\";\n" ++
    "\n" ++
    "export async function likeAlbum(albumId) \x7b\n" ++
    "  const key = \x60like-$\x7balbumId\x7d\x60;\n" ++
    "  setLikes(key, getLikes(key) + 1);\n" ++
    "\x7d\n"

def componentModule : ModulePath := ⟨"components/like.js"⟩

def actionsModule : ModulePath := ⟨"actions/album.js"⟩

def sources : List (ModulePath × String) :=
  [(⟨"app.js"⟩, pageSource), (⟨"state.js"⟩, stateSource), (⟨"data/albums.js"⟩, albumsSource),
    (⟨"lib/format.js"⟩, formatSource), (componentModule, likeSource), (actionsModule, actionsSource)]

def buildOptions : BuildOptions := ⟨"demos/album", ["app.js"], ["state.js"], .standard⟩

def likeKey (album : String) : String := "like-" ++ album

def actionId : String := Reference.idOf actionsModule "likeAlbum"

def componentId : String := Reference.idOf componentModule "Like"

/-- The function: it adds one to the likes of the album that its first argument names. -/
def likeAlbum (arguments : List Value) (store : Store) : Store × Outcome :=
  match arguments.head? with
  | some (.text album) =>
    let key := likeKey album
    (store.set key (Store.countValue (Store.nextCount (store.count key))), .value .null)
  | _ => (store, .error (.invalidArguments "likeAlbum expects an album id"))

def standardAlbums : List Album :=
  [⟨"a1", "Blue Train"⟩, ⟨"a2", "Kind of Blue"⟩, ⟨"a3", "Mingus Ah Um"⟩]

def entry (store : Store) (album : Album) : Node :=
  .element "li" [("key", .text album.id)]
    [.element "span" [] [.text album.title],
      .clientReference componentId
        [("albumId", .text album.id), ("likes", Store.countValue (store.count (likeKey album.id)))]]

def page (albums : List Album) (store : Store) : Node :=
  .element "main" []
    [.element "h1" [] [.text "Albums"], .element "ul" [] (albums.map (entry store))]

inductive SetupError where
  | build (e : BuildError)
  | registry (e : RegistryError)
  | missingReference (id : String)
deriving DecidableEq, Repr, Inhabited

namespace SetupError

def message : SetupError → String
  | .build e => e.display
  | .registry e => e.message
  | .missingReference id => "Client reference " ++ id ++ " is missing from the build manifest"

end SetupError

def register (registry : Registry) : Except RegistryError Registry :=
  registry.register actionId ⟨0, likeAlbum⟩

def app (endpoint : String) (albums : List Album) : Except RegistryError App := do
  return ⟨endpoint, ← register .empty, fun store => (store, .ok (page albums store))⟩

/-- The application at an endpoint, if a manifest has all that it needs: the reference to the component
first, then every function. -/
def appOfManifest (endpoint : String) (albums : List Album) (manifest : Manifest) :
    Except SetupError App := do
  if (manifest.clientReference? componentId).isNone then .error (.missingReference componentId)
  else
    match app endpoint albums with
    | .error e => .error (.registry e)
    | .ok app =>
      match app.registry.verify manifest with
      | .error e => .error (.registry e)
      | .ok _ => .ok app

end Album
end Realms
