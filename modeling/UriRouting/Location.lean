/-
# UriRouting.Location — the place that a URL names

The parts of a URL that matter for finding a service: scheme, host, port, path and query, each of
them present.  What a URL leaves out is empty; a port that it leaves out is the known one of its
scheme, or zero.

`display` writes a location as a URL, leaving out the port where it is the one of the web, and an
empty query.  `pathOf` is the path that a user means who gives a URL or just a path.
-/
import UriRouting.Url.Basic

namespace UriRouting

/-- **`Location`** — scheme, host, port, path and query. -/
structure Location where
  scheme : Text
  host : Text
  port : Nat
  path : Text
  query : Text
  deriving DecidableEq, Repr, Inhabited

namespace Location

/-- The location that a URL names. -/
def ofUrl (url : Url) : Location where
  scheme := url.scheme
  host := (url.host.map Url.Host.render).getD []
  port := (url.port.or (Url.knownPort url.scheme)).getD 0
  path := url.path
  query := url.query.getD []

/-- **`read s`** — the location that an absolute URL names. -/
def read [Url.Idna] (s : Text) : Except UrlError Location := (Url.read s).map ofUrl

/-- The port goes without saying. -/
def hasDefaultPort (l : Location) : Bool :=
  (l.scheme = Text.ofString "http" && l.port = 80) ||
    (l.scheme = Text.ofString "https" && l.port = 443)

/-- **`base l`** — scheme, host and, unless it goes without saying, port. -/
def base (l : Location) : Text :=
  l.scheme ++ [':', '/', '/'] ++ l.host ++
    if l.hasDefaultPort then [] else ':' :: Text.Decimal.ofNat l.port

/-- **`display l`** — the location as a URL. -/
def display (l : Location) : Text :=
  l.base ++ l.path ++ if l.query = [] then [] else '?' :: l.query

/-- **`pathOf s`** — the path of a URL with a host, and any other text as it is. -/
def pathOf [Url.Idna] (s : Text) : Text :=
  match read s with
  | .ok l => if l.host = [] then s else l.path
  | .error _ => s

end Location

end UriRouting
