import Mathlib

/-!
# Splitting and joining URLs

`urllib.parse` on lists of characters.  What Python checks of a network location
is a parameter: it depends on nothing else of the URL.

* `urlparse_eq_ok`: what the components of a URL can be.
* `netloc_urlunparse`: a URL that is put together again, with another path and no
  fragment, has the network location that it had.
-/

namespace VirtualContributor.Lib.Url

/-! ## Splitting -/

/-- `_WHATWG_C0_CONTROL_OR_SPACE`. -/
def isControlOrSpace (c : Char) : Bool := c.toNat ≤ 32

/-- `_UNSAFE_URL_BYTES_TO_REMOVE`. -/
def isUnsafe (c : Char) : Bool := c = '\t' || c = '\r' || c = '\n'

/-- `scheme_chars`. -/
def isSchemeChar (c : Char) : Bool := c.isAlphanum || c = '+' || c = '-' || c = '.'

/-- A character that ends a network location. -/
def isDelimiter (c : Char) : Bool := c = '/' || c = '?' || c = '#'

def clean (url : List Char) : List Char :=
  (url.dropWhile isControlOrSpace).filter fun c => !isUnsafe c

/-- The scheme, in lower case, and what follows it. -/
def splitScheme (url : List Char) : List Char × List Char :=
  let before := url.takeWhile (· ≠ ':')
  match before, url.dropWhile (· ≠ ':') with
  | c :: _, _ :: rest =>
    if c.isAlpha && before.all isSchemeChar then (before.map Char.toLower, rest) else ([], url)
  | _, _ => ([], url)

/-- `_splitnetloc`. -/
def splitNetloc : List Char → List Char × List Char
  | '/' :: '/' :: rest =>
    (rest.takeWhile fun c => !isDelimiter c, rest.dropWhile fun c => !isDelimiter c)
  | url => ([], url)

/-- `url.split(separator, 1)`, with nothing behind a separator that is missing. -/
def splitAt (separator : Char) (url : List Char) : List Char × List Char :=
  (url.takeWhile (· ≠ separator), (url.dropWhile (· ≠ separator)).tail)

/-- The result of `urlparse`; `urlsplit` gives no parameters. -/
structure Components where
  scheme : List Char
  netloc : List Char
  path : List Char
  params : List Char := []
  query : List Char
  fragment : List Char

section

variable {ε : Type} (checkNetloc : List Char → Except ε Unit)

def urlsplit (url : List Char) : Except ε Components := do
  let (scheme, url) := splitScheme (clean url)
  let (netloc, url) := splitNetloc url
  let (url, fragment) := splitAt '#' url
  let (path, query) := splitAt '?' url
  checkNetloc netloc
  return { scheme, netloc, path, query, fragment }

def USES_PARAMS : List String :=
  ["", "ftp", "hdl", "prospero", "http", "https", "shttp", "rtsp", "rtsps", "sip", "sips", "mms",
    "sftp", "tel"]

/-- `_splitparams`: the parameters of the last segment. -/
def splitParams (path : List Char) : List Char × List Char :=
  let last := (path.reverse.takeWhile (· ≠ '/')).reverse
  let before := (path.reverse.dropWhile (· ≠ '/')).reverse
  (before ++ (splitAt ';' last).1, (splitAt ';' last).2)

/-- The parameters of a split URL, for the schemes that use them. -/
def withParams (parts : Components) : Components :=
  if String.ofList parts.scheme ∈ USES_PARAMS then
    { parts with path := (splitParams parts.path).1, params := (splitParams parts.path).2 }
  else parts

def urlparse (url : List Char) : Except ε Components :=
  (urlsplit checkNetloc url).map withParams

end

/-! ## Joining -/

def USES_NETLOC : List String :=
  ["", "ftp", "http", "gopher", "nntp", "telnet", "imap", "wais", "file", "mms", "https", "shttp",
    "snews", "prospero", "rtsp", "rtsps", "rtspu", "rsync", "svn", "svn+ssh", "sftp", "nfs", "git",
    "git+ssh", "ws", "wss", "itms-services"]

def urlunsplit (scheme netloc url query fragment : List Char) : List Char :=
  let url :=
    if netloc ≠ [] || (scheme ≠ [] && String.ofList scheme ∈ USES_NETLOC &&
        ['/', '/'].isPrefixOf url = false) then
      ['/', '/'] ++ netloc ++ (if url ≠ [] && url.head? ≠ some '/' then '/' :: url else url)
    else url
  let url := if scheme ≠ [] then scheme ++ ':' :: url else url
  let url := if query ≠ [] then url ++ '?' :: query else url
  if fragment ≠ [] then url ++ '#' :: fragment else url

/-- `urlunparse`, which is `geturl`. -/
def urlunparse (parts : Components) : List Char :=
  let url := if parts.params ≠ [] then parts.path ++ ';' :: parts.params else parts.path
  urlunsplit parts.scheme parts.netloc url parts.query parts.fragment

/-! ## Components -/

/-- A scheme as `splitScheme` gives it. -/
def ValidScheme (scheme : List Char) : Prop :=
  scheme = [] ∨ ∃ c rest, scheme = c :: rest ∧ c.isAlpha = true ∧
    scheme.all isSchemeChar = true ∧ scheme.map Char.toLower = scheme

/-- The components of a URL. -/
structure Valid (parts : Components) : Prop where
  scheme : ValidScheme parts.scheme
  netloc : ∀ c ∈ parts.netloc, isDelimiter c = false
  safe : ∀ c ∈ parts.netloc ++ parts.path ++ parts.params ++ parts.query, isUnsafe c = false

theorem safe_clean {url : List Char} : ∀ c ∈ clean url, isUnsafe c = false := by
  intro c hc
  have hsafe := (List.mem_filter.mp hc).2
  simpa using hsafe

theorem ascii_of_isSchemeChar {c : Char} (h : isSchemeChar c = true) : c.toNat < 128 := by
  have hnat : c.toNat = c.val.toNat := rfl
  have hZ : 'Z'.val.toNat = 90 := rfl
  have hz : 'z'.val.toNat = 122 := rfl
  have h9 : '9'.val.toNat = 57 := rfl
  simp only [isSchemeChar, Char.isAlphanum, Char.isAlpha, Char.isUpper, Char.isLower,
    Char.isDigit, Bool.or_eq_true, Bool.and_eq_true, decide_eq_true_eq, ge_iff_le,
    UInt32.le_iff_toNat_le] at h
  obtain ((h | rfl) | rfl) | rfl := h
  · omega
  · decide
  · decide
  · decide

/-- What is checked of the ASCII characters holds of each of them. -/
theorem of_ascii {p : Char → Bool} (h : (List.range 128).all (fun n => p (Char.ofNat n)) = true)
    {c : Char} (hc : c.toNat < 128) : p c = true := by
  have hn := List.all_eq_true.mp h c.toNat (List.mem_range.mpr hc)
  rwa [Char.ofNat_toNat] at hn

theorem isSchemeChar_toLower {c : Char} (h : isSchemeChar c = true) :
    isSchemeChar c.toLower = true := by
  have hall := of_ascii (p := fun c => !isSchemeChar c || isSchemeChar c.toLower)
    (by decide +kernel) (ascii_of_isSchemeChar h)
  simpa [h] using hall

/-- A character of a scheme is no colon, no delimiter, and not removed. -/
theorem plain_of_isSchemeChar {c : Char} (h : isSchemeChar c = true) :
    c ≠ ':' ∧ isUnsafe c = false ∧ isControlOrSpace c = false := by
  have hall := of_ascii (p := fun c => !isSchemeChar c ||
    (c ≠ ':' && !isUnsafe c && !isControlOrSpace c)) (by decide +kernel) (ascii_of_isSchemeChar h)
  simpa [h, and_assoc] using hall

theorem splitScheme_cases (url : List Char) :
    ValidScheme (splitScheme url).1 ∧ (splitScheme url).2 <:+ url := by
  unfold splitScheme
  dsimp only
  split
  case h_1 c before c' rest hbefore hrest =>
    split
    case isTrue hscheme =>
      rw [Bool.and_eq_true] at hscheme
      obtain ⟨halpha, hall⟩ := hscheme
      have hchars := List.all_eq_true.mp hall
      refine ⟨.inr ?_, ?_⟩
      · rw [hbefore] at hchars ⊢
        refine ⟨c.toLower, before.map Char.toLower, rfl, ?_, ?_, ?_⟩
        · rw [Char.isAlpha_toLower_eq_isAlpha, halpha]
        · rw [List.all_map, List.all_eq_true]
          exact fun d hd => isSchemeChar_toLower (hchars d hd)
        · rw [List.map_map]
          exact List.map_congr_left fun d _ => Char.toLower_toLower_eq_toLower d
      · exact (List.suffix_cons c' rest).trans (hrest ▸ List.dropWhile_suffix _)
    case isFalse => exact ⟨.inl rfl, List.suffix_refl url⟩
  case h_2 => exact ⟨.inl rfl, List.suffix_refl url⟩

theorem splitNetloc_cases (url : List Char) :
    (∀ c ∈ (splitNetloc url).1, c ∈ url ∧ isDelimiter c = false) ∧
      ∀ c ∈ (splitNetloc url).2, c ∈ url := by
  unfold splitNetloc
  split
  · rename_i rest
    have hmem : ∀ c ∈ rest, c ∈ '/' :: '/' :: rest := fun c hc => by simp [hc]
    refine ⟨fun c hc => ?_, fun c hc => hmem c ((List.dropWhile_suffix _).subset hc)⟩
    exact ⟨hmem c ((List.takeWhile_sublist _).subset hc), by simpa using List.mem_takeWhile_imp hc⟩
  · exact ⟨nofun, fun c hc => hc⟩

theorem mem_of_mem_splitAt {separator : Char} {url : List Char} :
    (∀ c ∈ (splitAt separator url).1, c ∈ url) ∧ ∀ c ∈ (splitAt separator url).2, c ∈ url :=
  ⟨fun _ hc => (List.takeWhile_sublist _).subset hc,
    fun _ hc => (List.dropWhile_suffix _).subset (List.mem_of_mem_tail hc)⟩

theorem mem_of_mem_splitParams {path : List Char} :
    (∀ c ∈ (splitParams path).1, c ∈ path) ∧ ∀ c ∈ (splitParams path).2, c ∈ path := by
  have hlast : ∀ c ∈ (path.reverse.takeWhile (· ≠ '/')).reverse, c ∈ path := fun c hc =>
    List.mem_reverse.mp ((List.takeWhile_sublist _).subset (List.mem_reverse.mp hc))
  have hbefore : ∀ c ∈ (path.reverse.dropWhile (· ≠ '/')).reverse, c ∈ path := fun c hc =>
    List.mem_reverse.mp ((List.dropWhile_suffix _).subset (List.mem_reverse.mp hc))
  unfold splitParams
  refine ⟨fun c hc => ?_, fun c hc => hlast c (mem_of_mem_splitAt.2 c hc)⟩
  obtain hc | hc := List.mem_append.mp hc
  · exact hbefore c hc
  · exact hlast c (mem_of_mem_splitAt.1 c hc)

section

variable {ε : Type} {checkNetloc : List Char → Except ε Unit} {url : List Char}
  {parts : Components}

/-- What a URL that is split consists of. -/
theorem urlsplit_eq_ok (h : urlsplit checkNetloc url = .ok parts) :
    Valid parts ∧ checkNetloc parts.netloc = .ok () := by
  unfold urlsplit at h
  obtain ⟨hscheme, hrest⟩ := splitScheme_cases (clean url)
  obtain ⟨hnetloc, hurl⟩ := splitNetloc_cases (splitScheme (clean url)).2
  dsimp only at h
  cases hcheck : checkNetloc (splitNetloc (splitScheme (clean url)).2).1 with
  | error e =>
    rw [hcheck] at h
    exact absurd h nofun
  | ok _ =>
    rw [hcheck] at h
    obtain rfl := Except.ok.inj h
    have hsafe : ∀ c ∈ (splitScheme (clean url)).2, isUnsafe c = false :=
      fun c hc => safe_clean c (hrest.subset hc)
    refine ⟨⟨hscheme, fun c hc => (hnetloc c hc).2, ?_⟩, hcheck⟩
    intro c hc
    apply hsafe
    simp only [List.mem_append, List.not_mem_nil, or_false] at hc
    obtain (hc | hc) | hc := hc
    · exact (hnetloc c hc).1
    · exact hurl c (mem_of_mem_splitAt.1 c (mem_of_mem_splitAt.1 c hc))
    · exact hurl c (mem_of_mem_splitAt.1 c (mem_of_mem_splitAt.2 c hc))

@[simp] theorem netloc_withParams (parts : Components) :
    (withParams parts).netloc = parts.netloc := by
  unfold withParams
  split <;> rfl

theorem Valid.withParams (h : Valid parts) : Valid (withParams parts) := by
  unfold Url.withParams
  split
  · refine ⟨h.scheme, h.netloc, fun c hc => h.safe c ?_⟩
    have hpath := @mem_of_mem_splitParams parts.path
    simp only [List.mem_append] at hc ⊢
    obtain ((hc | hc) | hc) | hc := hc
    · exact .inl (.inl (.inl hc))
    · exact .inl (.inl (.inr (hpath.1 c hc)))
    · exact .inl (.inl (.inr (hpath.2 c hc)))
    · exact .inr hc
  · exact h

theorem urlparse_eq_ok (h : urlparse checkNetloc url = .ok parts) :
    Valid parts ∧ checkNetloc parts.netloc = .ok () := by
  unfold urlparse at h
  cases hsplit : urlsplit checkNetloc url with
  | error e =>
    rw [hsplit] at h
    exact absurd h nofun
  | ok split =>
    rw [hsplit] at h
    obtain rfl := Except.ok.inj h
    obtain ⟨hvalid, hcheck⟩ := urlsplit_eq_ok hsplit
    exact ⟨hvalid.withParams, by rw [netloc_withParams, hcheck]⟩

theorem Valid.safe_netloc (h : Valid parts) : ∀ c ∈ parts.netloc, isUnsafe c = false :=
  fun c hc => h.safe c (by simp [hc])

theorem Valid.safe_path (h : Valid parts) : ∀ c ∈ parts.path, isUnsafe c = false :=
  fun c hc => h.safe c (by simp [hc])

theorem Valid.safe_params (h : Valid parts) : ∀ c ∈ parts.params, isUnsafe c = false :=
  fun c hc => h.safe c (by simp [hc])

theorem Valid.safe_query (h : Valid parts) : ∀ c ∈ parts.query, isUnsafe c = false :=
  fun c hc => h.safe c (by simp [hc])

/-! ## Splitting what is joined -/

theorem clean_eq_self {c : Char} {rest : List Char} (hfirst : isControlOrSpace c = false)
    (hsafe : ∀ d ∈ c :: rest, isUnsafe d = false) : clean (c :: rest) = c :: rest := by
  unfold clean
  rw [List.dropWhile_cons_of_neg (by simp [hfirst])]
  exact List.filter_eq_self.mpr fun d hd => by simp [hsafe d hd]

/-- A valid scheme, a colon, and the rest. -/
theorem splitScheme_colon {c : Char} {scheme rest : List Char} (halpha : c.isAlpha = true)
    (hall : (c :: scheme).all isSchemeChar = true)
    (hlower : (c :: scheme).map Char.toLower = c :: scheme) :
    splitScheme (c :: scheme ++ ':' :: rest) = (c :: scheme, rest) := by
  have hcolon : ∀ d ∈ c :: scheme, decide (d ≠ ':') = true := fun d hd =>
    decide_eq_true (plain_of_isSchemeChar (List.all_eq_true.mp hall d hd)).1
  have hbefore : (c :: scheme ++ ':' :: rest).takeWhile (fun d => decide (d ≠ ':')) =
      c :: scheme := by
    rw [List.takeWhile_append_of_pos hcolon, List.takeWhile_cons_of_neg (by simp),
      List.append_nil]
  have hafter : (c :: scheme ++ ':' :: rest).dropWhile (fun d => decide (d ≠ ':')) =
      ':' :: rest := by
    rw [List.dropWhile_append_of_pos hcolon, List.dropWhile_cons_of_neg (by simp)]
  unfold splitScheme
  rw [hbefore, hafter]
  dsimp only
  rw [halpha, hall, hlower]
  rfl

/-- Without a scheme nothing is split off a URL that begins with a slash. -/
theorem splitScheme_slash (rest : List Char) : splitScheme ('/' :: rest) = ([], '/' :: rest) := by
  unfold splitScheme
  rw [List.takeWhile_cons_of_pos (by decide)]
  dsimp only
  split
  · rename_i hbefore _
    rw [← (List.cons.inj hbefore).1]
    rfl
  · rfl

theorem splitNetloc_slash {netloc : List Char} (h : ∀ c ∈ netloc, isDelimiter c = false)
    (rest : List Char) :
    (splitNetloc ('/' :: '/' :: netloc ++ '/' :: rest)).1 = netloc := by
  show ((netloc ++ '/' :: rest).takeWhile fun c => !isDelimiter c) = netloc
  rw [List.takeWhile_append_of_pos (fun c hc => by simp [h c hc]),
    List.takeWhile_cons_of_neg (by decide), List.append_nil]

/-- A scheme, a network location and a path that begins with a slash. -/
theorem netloc_urlparse {scheme netloc rest : List Char} (hscheme : ValidScheme scheme)
    (hnetloc : ∀ c ∈ netloc, isDelimiter c = false)
    (hsafe : ∀ c ∈ netloc ++ rest, isUnsafe c = false) (hcheck : checkNetloc netloc = .ok ()) :
    ∃ parts, urlparse checkNetloc
        ((if scheme ≠ [] then scheme ++ [':'] else []) ++
          ('/' :: '/' :: netloc ++ '/' :: rest)) = .ok parts ∧
      parts.netloc = netloc := by
  have hall : ∀ d ∈ '/' :: '/' :: netloc ++ '/' :: rest, isUnsafe d = false := by
    intro d hd
    have hmem : d = '/' ∨ d ∈ netloc ++ rest := by
      simp only [List.cons_append, List.mem_cons, List.mem_append] at hd ⊢
      tauto
    obtain rfl | hd := hmem
    · rfl
    · exact hsafe d hd
  have hsplit : ∀ joined, clean joined = joined →
      splitScheme joined = (scheme, '/' :: '/' :: netloc ++ '/' :: rest) →
      ∃ parts, urlparse checkNetloc joined = .ok parts ∧ parts.netloc = netloc := by
    intro joined hclean hschemes
    have hnet := splitNetloc_slash hnetloc rest
    unfold urlparse urlsplit
    rw [hclean, hschemes]
    dsimp only
    rw [hnet, hcheck]
    exact ⟨_, rfl, by rw [netloc_withParams]⟩
  obtain rfl | ⟨c, more, rfl, halpha, hchars, hlower⟩ := hscheme
  · rw [if_neg (by simp), List.nil_append]
    exact hsplit _ (clean_eq_self (by decide) hall) (splitScheme_slash _)
  · rw [if_pos (List.cons_ne_nil _ _)]
    have hplain : ∀ d ∈ c :: more, isUnsafe d = false ∧ isControlOrSpace d = false :=
      fun d hd => (plain_of_isSchemeChar (List.all_eq_true.mp hchars d hd)).2
    rw [List.append_assoc, List.singleton_append]
    refine hsplit _ (clean_eq_self (hplain c List.mem_cons_self).2 ?_)
      (splitScheme_colon halpha hchars hlower)
    intro d hd
    have hd : d ∈ (c :: more) ++ ':' :: ('/' :: '/' :: netloc ++ '/' :: rest) := hd
    obtain hd | hd := List.mem_append.mp hd
    · exact (hplain d hd).1
    · obtain rfl | hd := List.mem_cons.mp hd
      · rfl
      · exact hall d hd

/-- The URL with a slash in front, if it has none. -/
theorem rooted (url : List Char) (hne : url ≠ []) :
    ∃ rest, (if url ≠ [] && url.head? ≠ some '/' then '/' :: url else url) = '/' :: rest ∧
      ∀ c ∈ rest, c ∈ url := by
  cases url with
  | nil => exact absurd rfl hne
  | cons c url =>
    by_cases hc : c = '/'
    · subst hc
      exact ⟨url, by simp, fun c hc => List.mem_cons_of_mem _ hc⟩
    · exact ⟨c :: url, by simp [hc], fun c hc => hc⟩

/-- A joined URL is a scheme, a network location and a path that begins with a
slash. -/
theorem urlunparse_eq {path : List Char} (hnetloc : parts.netloc ≠ []) (hne : path ≠ [])
    (hpath : ∀ c ∈ path, isUnsafe c = false) (hparams : ∀ c ∈ parts.params, isUnsafe c = false)
    (hquery : ∀ c ∈ parts.query, isUnsafe c = false) :
    ∃ rest, (∀ c ∈ rest, isUnsafe c = false) ∧
      urlunparse { parts with path := path, fragment := [] } =
        (if parts.scheme ≠ [] then parts.scheme ++ [':'] else []) ++
          ('/' :: '/' :: parts.netloc ++ '/' :: rest) := by
  set url := if parts.params ≠ [] then path ++ ';' :: parts.params else path with hurl
  have hsafe : ∀ c ∈ url, isUnsafe c = false := by
    intro c hc
    rw [hurl] at hc
    split at hc
    · obtain hc | hc := List.mem_append.mp hc
      · exact hpath c hc
      · obtain rfl | hc := List.mem_cons.mp hc
        · rfl
        · exact hparams c hc
    · exact hpath c hc
  have hurlne : url ≠ [] := by
    rw [hurl]
    split
    · exact List.append_ne_nil_of_left_ne_nil hne _
    · exact hne
  obtain ⟨rest, hrooted, hrest⟩ := rooted url hurlne
  refine ⟨rest ++ if parts.query ≠ [] then '?' :: parts.query else [], ?_, ?_⟩
  · intro c hc
    obtain hc | hc := List.mem_append.mp hc
    · exact hsafe c (hrest c hc)
    · split at hc
      · obtain rfl | hc := List.mem_cons.mp hc
        · rfl
        · exact hquery c hc
      · exact absurd hc List.not_mem_nil
  · have hauthority : (decide (parts.netloc ≠ []) || (decide (parts.scheme ≠ []) &&
        decide (String.ofList parts.scheme ∈ USES_NETLOC) &&
          decide (['/', '/'].isPrefixOf url = false))) = true := by
      rw [decide_eq_true hnetloc, Bool.true_or]
    unfold urlunparse urlunsplit
    dsimp only
    rw [← hurl, if_pos hauthority, hrooted, if_neg (fun h : [] ≠ [] => h rfl)]
    split <;> split <;> simp

/-- A URL with a network location that is joined again, with another path and no
fragment, has that network location. -/
theorem netloc_urlunparse (h : urlparse checkNetloc url = .ok parts) (hnetloc : parts.netloc ≠ [])
    {path : List Char} (hne : path ≠ []) (hpath : ∀ c ∈ path, isUnsafe c = false) :
    ∃ again, urlparse checkNetloc (urlunparse { parts with path := path, fragment := [] }) =
        .ok again ∧
      again.netloc = parts.netloc := by
  obtain ⟨hvalid, hcheck⟩ := urlparse_eq_ok h
  obtain ⟨rest, hrest, hjoined⟩ :=
    urlunparse_eq hnetloc hne hpath hvalid.safe_params hvalid.safe_query
  rw [hjoined]
  refine netloc_urlparse hvalid.scheme hvalid.netloc (fun c hc => ?_) hcheck
  obtain hc | hc := List.mem_append.mp hc
  · exact hvalid.safe_netloc c hc
  · exact hrest c hc

end

end VirtualContributor.Lib.Url
