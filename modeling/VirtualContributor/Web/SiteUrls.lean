import VirtualContributor.Lib.Checks
import VirtualContributor.Lib.Url
import VirtualContributor.Web.Crawler

/-!
# URLs of a site

The URL functions that the crawler is given are those of `urllib.parse`.  Then
`_normalize_url` keeps the network location of a URL that has one.
-/

namespace VirtualContributor.Web

open Lib

/-- The characters of a parsed URL. -/
def ParseResult.components (parsed : ParseResult) : Url.Components where
  scheme := parsed.scheme.toList
  netloc := parsed.netloc.toList
  path := parsed.path.toList
  params := parsed.params.toList
  query := parsed.query.toList
  fragment := parsed.fragment.toList

def ParseResult.ofComponents (parts : Url.Components) : ParseResult where
  scheme := String.ofList parts.scheme
  netloc := String.ofList parts.netloc
  path := String.ofList parts.path
  params := String.ofList parts.params
  query := String.ofList parts.query
  fragment := String.ofList parts.fragment

/-- The functions of a site are those of `urllib.parse`.  `checkNetloc` is what
it checks of a network location. -/
structure SiteLib.Urllib (L : SiteLib) (checkNetloc : List Char → Except String Unit) : Prop where
  urlparse : ∀ url, L.urlparse url =
    (Url.urlparse checkNetloc url.toList).map ParseResult.ofComponents
  geturl : ∀ parsed, L.geturl parsed = String.ofList (Url.urlunparse parsed.components)
  urlsplit : ∀ url parts, L.urlsplit url = .ok parts →
    ∃ split, Url.urlsplit checkNetloc url.toList = .ok split ∧
      parts.netloc = String.ofList split.netloc
  hostname : ∀ url parts, L.urlsplit url = .ok parts → parts.netloc = "" →
    parts.hostname = .ok none
  lower : L.lower "" = ""

section

variable {L : SiteLib} {checkNetloc : List Char → Except String Unit}

/-- The path of a normalized URL. -/
def normalPath (path : String) : String :=
  if rstripSlash path = "" then "/" else rstripSlash path

theorem components_normal (parts : Url.Components) (path : String) :
    ({ ParseResult.ofComponents parts with fragment := "", path := path } :
      ParseResult).components = { parts with path := path.toList, fragment := [] } := by
  simp [ParseResult.components, ParseResult.ofComponents]

theorem rstripSlash_subset {path : String} :
    ∀ c ∈ (rstripSlash path).toList, c ∈ path.toList := by
  intro c hc
  unfold rstripSlash at hc
  rw [String.toList_ofList, List.mem_reverse] at hc
  exact List.mem_reverse.mp ((List.dropWhile_suffix _).subset hc)

theorem normalPath_ne (path : String) : (normalPath path).toList ≠ [] := by
  unfold normalPath
  split
  · decide
  · rename_i hstripped
    exact fun h => hstripped (String.toList_eq_nil_iff.mp h)

theorem mem_normalPath {path : String} {c : Char} (hc : c ∈ (normalPath path).toList) :
    c = '/' ∨ c ∈ path.toList := by
  unfold normalPath at hc
  split at hc
  · exact .inl (List.mem_singleton.mp hc)
  · exact .inr (rstripSlash_subset c hc)

theorem normalizeUrl_eq {url : String} {parsed : ParseResult} (h : L.urlparse url = .ok parsed) :
    normalizeUrl L url =
      .ok (L.geturl { parsed with fragment := "", path := normalPath parsed.path }) := by
  unfold normalizeUrl
  rw [h]
  rfl

namespace SiteLib.Urllib

variable (hL : L.Urllib checkNetloc)

include hL

theorem urlparse_eq_ok {url : String} {parsed : ParseResult} (h : L.urlparse url = .ok parsed) :
    ∃ parts, Url.urlparse checkNetloc url.toList = .ok parts ∧
      parsed = .ofComponents parts := by
  rw [hL.urlparse] at h
  cases hparts : Url.urlparse checkNetloc url.toList with
  | error text =>
    rw [hparts] at h
    exact absurd h nofun
  | ok parts =>
    rw [hparts] at h
    exact ⟨parts, rfl, (Except.ok.inj h).symm⟩

/-- A URL with a network location keeps it. -/
theorem netloc_normalizeUrl {url normalized : String} {parsed : ParseResult}
    (hparsed : L.urlparse url = .ok parsed) (hnetloc : parsed.netloc ≠ "")
    (h : normalizeUrl L url = .ok normalized) :
    ∃ again, L.urlparse normalized = .ok again ∧ again.netloc = parsed.netloc := by
  obtain ⟨parts, hparts, rfl⟩ := hL.urlparse_eq_ok hparsed
  rw [normalizeUrl_eq hparsed] at h
  obtain rfl := Except.ok.inj h
  have hsafe : ∀ c ∈ (normalPath (String.ofList parts.path)).toList, Url.isUnsafe c = false := by
    intro c hc
    obtain rfl | hc := mem_normalPath hc
    · rfl
    · rw [String.toList_ofList] at hc
      exact (Url.urlparse_eq_ok hparts).1.safe_path c hc
  have hnet : parts.netloc ≠ [] := fun h => hnetloc (congrArg String.ofList h)
  obtain ⟨again, hagain, hsame⟩ :=
    Url.netloc_urlunparse hparts hnet (normalPath_ne _) hsafe
  refine ⟨.ofComponents again, ?_, congrArg String.ofList hsame⟩
  rw [hL.urlparse, hL.geturl, String.toList_ofList, components_normal]
  exact congrArg (Except.map ParseResult.ofComponents) hagain

/-- A URL on the network location of a base that has one is normalized to a URL
on it. -/
theorem isSameDomain_normalizeUrl {base url normalized : String}
    (hbase : ∀ parsed, L.urlparse base = .ok parsed → parsed.netloc ≠ "")
    (hsame : isSameDomain L base url = .ok true) (h : normalizeUrl L url = .ok normalized) :
    isSameDomain L base normalized = .ok true := by
  unfold isSameDomain at hsame ⊢
  obtain ⟨parsedBase, hparsedBase, hsame⟩ := bind_eq_ok.mp hsame
  obtain ⟨parsed, hparsed, hsame⟩ := bind_eq_ok.mp hsame
  have heq : parsedBase.netloc = parsed.netloc := of_decide_eq_true (Except.ok.inj hsame)
  obtain ⟨again, hagain, hnetloc⟩ :=
    hL.netloc_normalizeUrl hparsed (heq ▸ hbase parsedBase hparsedBase) h
  rw [hparsedBase, hagain]
  exact congrArg Except.ok (decide_eq_true (heq.trans hnetloc.symm))

/-- A host has a network location. -/
theorem netloc_ne_of_hostOf {url host : String} {parsed : ParseResult}
    (hhost : hostOf L.toUrlLib url = .ok host) (hne : host ≠ "")
    (hparsed : L.urlparse url = .ok parsed) : parsed.netloc ≠ "" := by
  intro hempty
  unfold hostOf at hhost
  obtain ⟨parts, hparts, hhost⟩ := bind_eq_ok.mp hhost
  obtain ⟨split, hsplit, hnetloc⟩ := hL.urlsplit url parts hparts
  obtain ⟨again, hagain, rfl⟩ := hL.urlparse_eq_ok hparsed
  unfold Url.urlparse at hagain
  rw [hsplit] at hagain
  obtain rfl := Except.ok.inj hagain
  have hsame : parts.netloc = "" := by
    rw [hnetloc, ← Url.netloc_withParams split]
    exact hempty
  rw [hL.hostname url parts hparts hsame] at hhost
  exact hne ((Except.ok.inj hhost).symm.trans hL.lower)

end SiteLib.Urllib

end

end VirtualContributor.Web
