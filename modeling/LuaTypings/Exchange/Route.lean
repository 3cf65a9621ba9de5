import LuaTypings.Text.Basic

/-!
# Routes

What the service can be asked for, each by its path and a method. Besides its work the service describes itself: in a
structured value, and on pages for readers.
-/

namespace LuaTypings.Exchange

/-- A page for readers. -/
inductive Page where
  /-- The page to try the service out. -/
  | trial
  /-- The page that a sign-in comes back to. -/
  | signIn
  /-- The page to look the service up. -/
  | reference
  deriving DecidableEq, Repr

/-- What the service can be asked for. -/
inductive Route where
  | health
  | modules
  | translate
  | description
  | page (page : Page)
  deriving DecidableEq, Repr

namespace Route

/-- All routes. -/
def all : List Route := [description, page .trial, page .signIn, page .reference, health, modules, translate]

/-- The path of a route. -/
def path : Route → Text
  | health => "/health"
  | modules => "/modules"
  | translate => "/translate"
  | description => "/openapi.json"
  | page .trial => "/docs"
  | page .signIn => "/docs/oauth2-redirect"
  | page .reference => "/redoc"

/-- The methods of a route. -/
def methods : Route → List Text
  | health | modules => ["GET".toList]
  | translate => ["POST".toList]
  | description | page _ => ["GET".toList, "HEAD".toList]

/-- The route of a path, which a line feed may end. -/
def ofPath? (path : Text) : Option Route := all.find? fun r => path = r.path || path = r.path ++ ['\n']

/-- The route of a path that has slashes too many at its end. -/
def behindSlashes? (path : Text) : Option Route := ofPath? (path.reverse.dropWhile (· == '/')).reverse

end Route

end LuaTypings.Exchange
