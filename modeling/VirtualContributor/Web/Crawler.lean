import VirtualContributor.Web.HtmlParser
import VirtualContributor.Web.UrlGuard

/-!
# The crawler

`plugins/ingest_website/crawler.py`.  A crawl is a program of the guard's
calls, and an exception that leaves `crawl` is its error.

The loop pops the queue until it is empty or the page limit is reached.  A
page that is read lowers the number of pages left and extends the queue, and
every other turn shortens the queue, so the loop is a recursion on the first
number with one on the queue inside.
-/

namespace VirtualContributor.Web

open Lib Program

/-! ## URLs of a site -/

/-- The result of `urlparse`. -/
structure ParseResult where
  scheme : String
  netloc : String
  path : String
  params : String
  query : String
  fragment : String

/-- The libraries of the crawler. -/
structure SiteLib extends UrlLib, HtmlLib where
  /-- `urlparse`; the error is the text of its `ValueError`. -/
  urlparse : String → Except String ParseResult
  /-- `parsed.geturl()`. -/
  geturl : ParseResult → String

/-- File extensions to skip. -/
def SKIP_EXTENSIONS : List String :=
  [".pdf", ".doc", ".docx", ".xls", ".xlsx", ".ppt", ".pptx",
    ".zip", ".tar", ".gz", ".rar", ".7z",
    ".jpg", ".jpeg", ".png", ".gif", ".svg", ".bmp", ".webp", ".ico",
    ".mp3", ".mp4", ".avi", ".mov", ".wmv", ".flv", ".wav",
    ".exe", ".msi", ".dmg", ".deb", ".rpm",
    ".css", ".js", ".json", ".xml", ".csv",
    ".woff", ".woff2", ".ttf", ".eot",
    ".iso", ".img", ".bin",
    ".odt", ".ods", ".odp", ".rtf", ".txt",
    ".apk", ".ipa",
    ".sql", ".db", ".sqlite",
    ".log", ".bak", ".tmp",
    ".yml", ".yaml", ".toml", ".ini", ".cfg", ".conf",
    ".sh", ".bash", ".ps1", ".bat", ".cmd",
    ".py", ".rb", ".java", ".c", ".cpp", ".h", ".go", ".rs"]

/-- `path.rstrip("/")`. -/
def rstripSlash (path : String) : String :=
  String.ofList ((path.toList.reverse.dropWhile (· = '/')).reverse)

section Urls

variable (L : SiteLib)

/-- Normalize a URL by removing fragments and trailing slashes. -/
def normalizeUrl (url : String) : Except String String := do
  let parsed ← L.urlparse url
  let path := rstripSlash parsed.path
  return L.geturl { parsed with fragment := "", path := if path = "" then "/" else path }

/-- Whether a URL belongs to the same domain as the base. -/
def isSameDomain (baseUrl url : String) : Except String Bool := do
  let base ← L.urlparse baseUrl
  let parsed ← L.urlparse url
  return base.netloc = parsed.netloc

/-- Whether a URL points to a file that should be skipped. -/
def shouldSkipUrl (url : String) : Except String Bool := do
  let parsed ← L.urlparse url
  return SKIP_EXTENSIONS.any (endsWith (L.lower parsed.path) ·)

end Urls

/-! ## `crawl` -/

structure Page where
  url : String
  html : String
deriving DecidableEq

/-- The local variables of the loop apart from the queue. -/
structure CrawlState where
  visited : List String := []
  results : List Page := []
  isFirstRequest : Bool := true

section Crawl

variable (L : SiteLib) (baseUrl : String)

/-- The URL of a turn, unless the turn skips it. -/
def turnTarget (visited : List String) (url : String) : Except String (Option String) := do
  let normalized ← normalizeUrl L url
  if normalized ∈ visited then return none
  if ← shouldSkipUrl L normalized then return none
  if ← isSameDomain L baseUrl normalized then return some normalized else return none

/-- The fetch of one page. -/
def pageOptions : FetchOptions where
  maxBytes := 10 * 1024 * 1024
  requestHeaders := [("User-Agent", "AlkemioBot/1.0")]
  redirectPolicy := some fun target =>
    match isSameDomain L baseUrl target with
    | .ok same => .ok same
    | .error text => .error (valueError text)

/-- One link of a page: its URL, if it is to be visited. -/
def linkTarget (visited : List String) (pageUrl href : String) :
    Except String (Option String) := do
  let fullUrl ← L.urljoin pageUrl href
  let full ← normalizeUrl L fullUrl
  if full ∈ visited then return none
  if !(← isSameDomain L baseUrl full) then return none
  if ← shouldSkipUrl L full then return none else return some full

/-- The links of a page that are to be visited. -/
def pageLinks (visited : List String) (pageUrl html : String) : Except String (List String) := do
  let links ← (L.hrefs html).mapM (linkTarget L baseUrl visited pageUrl)
  return links.filterMap id

/-- Whether a fetch without a body failed to reach its target. -/
def unreachable (result : GuardedFetchResult) : Bool :=
  result.reason = some .transport && result.statusCode.isNone

def crawlError (url : String) (result : GuardedFetchResult) : Exc :=
  let reason := result.errorType.getD "transport error"
  ⟨"CrawlError", s!"Failed to reach base URL {url}: {reason}", []⟩

/-- What the fetch of a page adds: its final URL and its links.  `none` when
the final URL was visited before. -/
def acceptPage (st : CrawlState) (normalized : String) (result : GuardedFetchResult)
    (body : Body) : Except String (Option (CrawlState × List String)) := do
  let html := L.decode body
  let finalUrl ← normalizeUrl L result.url
  if finalUrl ≠ normalized && finalUrl ∈ st.visited then return none
  let visited := if finalUrl = normalized then st.visited else st.visited ++ [finalUrl]
  let links ← pageLinks L baseUrl visited result.url html
  return some (⟨visited, st.results ++ [⟨finalUrl, html⟩], false⟩, links)

/-- The turns over a queue until a page is read; `next` goes on from there. -/
def crawlQueue (next : List String → CrawlState → Fetch (Except Exc (List Page))) :
    List String → CrawlState → Fetch (Except Exc (List Page))
  | [], st => pure (.ok st.results)
  | url :: rest, st =>
    match turnTarget L baseUrl st.visited url with
    | .error text => pure (.error (valueError text))
    | .ok none => crawlQueue next rest st
    | .ok (some normalized) => do
      let st := { st with visited := st.visited ++ [normalized] }
      match ← guardedFetch L.toUrlLib (pageOptions L baseUrl) normalized with
      | .error exc => pure (.error exc)
      | .ok result =>
        match result.body with
        | none =>
          if st.isFirstRequest && unreachable result then
            pure (.error (crawlError normalized result))
          else crawlQueue next rest { st with isFirstRequest := false }
        | some body =>
          match acceptPage L baseUrl st normalized result body with
          | .error text => pure (.error (valueError text))
          | .ok none => crawlQueue next rest st
          | .ok (some (st, links)) => next (rest ++ links) st

/-- The loop.  The first argument is the number of pages still wanted. -/
def crawlFrom : Nat → List String → CrawlState → Fetch (Except Exc (List Page))
  | 0, _, st => pure (.ok st.results)
  | left + 1, queue, st => crawlQueue L baseUrl (crawlFrom left) queue st

/-- Crawl a website recursively within domain boundaries. -/
def crawl (pageLimit : Nat := 20) : Fetch (Except Exc (List Page)) := do
  let decision ← checkDestination L.toUrlLib {} baseUrl
  if decision.allowed then
    match normalizeUrl L baseUrl with
    | .error text => pure (.error (valueError text))
    | .ok start => crawlFrom L baseUrl pageLimit [start] {}
  else
    -- The log line of a refused base URL parses it once more.
    match L.urlparse baseUrl with
    | .error text => pure (.error (valueError text))
    | .ok _ => pure (.ok [])

end Crawl

end VirtualContributor.Web
