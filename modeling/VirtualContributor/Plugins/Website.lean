import VirtualContributor.Messaging.Events
import VirtualContributor.Pipeline.Engine
import VirtualContributor.Web.Crawler

/-!
# The website plugin

`IngestWebsitePlugin.handle`: crawl, extract, ingest.  Its calls are those of
the crawler and those of the pipeline, and `siteWorld` is a world of both in
which a fetch leaves the collection alone.
-/

namespace VirtualContributor.Plugins

open Lib Program Messaging Pipeline Web

/-- The calls of the website plugin. -/
abbrev siteSignature : Signature := fetchSignature.sum ingestSignature

/-- The result the plugin builds on each of its paths. -/
def websiteResult (event : IngestWebsite) (timestamp : Int) (result : IngestionResult)
    (error : String) : IngestWebsiteResult where
  type := event.type
  purpose := event.purpose
  personaId := event.personaId
  timestamp := timestamp
  result := result
  error := error

/-- The result of a pipeline run. -/
def websiteResultOf (event : IngestWebsite) (timestamp : Int) (result : IngestResult) :
    IngestWebsiteResult :=
  websiteResult event timestamp (if result.success then .success else .failure)
    ("; ".intercalate result.errors)

/-- The settings of the plugin. -/
structure IngestWebsitePlugin where
  pipeline : IngestPipeline := {}
  pageLimit : Nat := 20

section Handle

variable (L : SiteLib) (host : Host) (plugin : IngestWebsitePlugin)

/-- The document of a page, unless the page has no text. -/
def pageDocument (page : Page) : Option Document :=
  let text := L.extractText page.html
  if isBlank text then none
  else some
    { content := text
      metadata :=
        { documentId := page.url, source := page.url, title := L.extractTitle page.html } }

/-- The documents of a crawl.  From four documents on, the paragraphs they
share are removed. -/
def pageDocuments (pages : List Page) : List Document :=
  let documents := pages.filterMap (pageDocument L)
  if documents.length ≥ 4 then
    let cleaned := removeCrossPageBoilerplate L.lower (documents.map Document.content)
    (documents.zipWith (fun doc text => { doc with content := text }) cleaned).filter
      fun doc => !isBlank doc.content
  else documents

/-- `handle`.  The event's collection is the state of the run. -/
def IngestWebsitePlugin.handle (timestamp : Int) (event : IngestWebsite) :
    Program siteSignature IngestWebsiteResult :=
  match L.urlparse event.baseUrl with
  | .error text => pure (websiteResult event timestamp .failure text)
  | .ok _ => do
    match ← (crawl L event.baseUrl plugin.pageLimit).inLeft (T := ingestSignature) with
    | .error exc => pure (websiteResult event timestamp .failure exc.text)
    | .ok pages =>
      let result ← (plugin.pipeline.ingest host (pageDocuments L pages)).inRight
        (S := fetchSignature)
      pure (websiteResultOf event timestamp result)

end Handle

/-- The world of the plugin: the fetches may be answered in any way, and the
pipeline's ports behave as ports. -/
def siteWorld (ports : Ports) : World siteSignature Collection
  | s, .inl _, _, s' => s' = s
  | s, .inr c, r, s' => portWorld ports s c r s'

end VirtualContributor.Plugins
