import VirtualContributor.Lib.Establishes
import VirtualContributor.Plugins.GraphQLClient

/-!
# Where session tokens come from

The tasks of a worker share the session token of one client.  `guarded` is what
each call of a task promises to the others: a token that is written, and the
token of a query, was issued by a login before.  Every task keeps this while the
others do, so it holds in every interleaving (`posts_carry_issued_tokens`).

A task that is alone does not log in again once a login has issued a token
(`no_login_with_token`).
-/

namespace VirtualContributor.Plugins

open Lib Program GraphQLClient

/-! ## The shared state -/

/-- The session token, and the calls so far. -/
structure SessionState where
  token : Json
  log : List (Event sessionSignature)

/-- A client that was just made. -/
def newSession : SessionState := ⟨.null, []⟩

/-- The attribute is read and written; what the servers answer is left open. -/
def sessionWorld : World sessionSignature SessionState := fun s c r s' =>
  s'.log = s.log ++ [⟨c, r⟩] ∧
    match c, r with
    | .readToken, token => token = s.token ∧ s'.token = s.token
    | .writeToken token, _ => s'.token = token
    | _, _ => s'.token = s.token

/-- The token that an event issues: that of a login response. -/
def issuedBy : Event sessionSignature → Option Json
  | ⟨.login _ _ _, .ok answer⟩ => (sessionTokenOf answer).toOption
  | _ => none

/-- A login response among the events issued the token. -/
def Issued (log : List (Event sessionSignature)) (token : Json) : Prop :=
  ∃ e ∈ log, issuedBy e = some token

theorem Issued.mono {log log' : List (Event sessionSignature)} {token : Json}
    (h : Issued log token) (hlog : ∀ e ∈ log, e ∈ log') : Issued log' token := by
  obtain ⟨e, he, hissued⟩ := h
  exact ⟨e, hlog e he, hissued⟩

/-- The log of a pool is the log before it and its events. -/
theorem log_of_pool {α : Type} {tasks tasks' : List (Program sessionSignature α)}
    {s s' : SessionState} {t : List (Event sessionSignature)}
    (h : Pool sessionWorld tasks s t tasks' s') : s'.log = s.log ++ t := by
  induction h with
  | stop tasks s => exact (List.append_nil _).symm
  | step hw _ ih => rw [ih, hw.1, List.append_assoc, List.singleton_append]

/-! ## What a task promises -/

/-- What the other tasks may do: log calls, and replace the token by one that
was issued. -/
def otherTasks : Interference SessionState where
  step s s' := (∀ e ∈ s.log, e ∈ s'.log) ∧ (s'.token = s.token ∨ Issued s'.log s'.token)
  refl s := ⟨fun _ he => he, .inl rfl⟩
  trans := by
    intro s₁ s₂ s₃ h h'
    refine ⟨fun e he => h'.1 e (h.1 e he), ?_⟩
    rcases h'.2 with htoken | hissued
    · rw [htoken]
      exact h.2.imp_right fun hissued => hissued.mono h'.1
    · exact .inr hissued

/-- A step of the world in which tokens that are written or sent were issued. -/
structure Guarded (T : PythonText) (s : SessionState) (c : SessionCall) (r : c.Answer)
    (s' : SessionState) : Prop where
  world : sessionWorld s c r s'
  written : ∀ token, c = .writeToken token → Issued s.log token
  sent : ∀ url authorization queryStr vars, c = .post url authorization queryStr vars →
    ∃ token, authorization = bearer T token ∧ Issued s.log token

variable {T : PythonText} {client : GraphQLClient}

theorem Guarded.otherTasks {s s' : SessionState} {c : SessionCall} {r : c.Answer}
    (h : Guarded T s c r s') : otherTasks.step s s' := by
  obtain ⟨⟨hlog, htoken⟩, hwritten, -⟩ := h
  have hgrows : ∀ e ∈ s.log, e ∈ s'.log := fun e he => hlog ▸ List.mem_append_left _ he
  refine ⟨hgrows, ?_⟩
  cases c with
  | readToken => exact .inl htoken.2
  | writeToken token =>
    have hequal : s'.token = token := htoken
    rw [hequal]
    exact .inr ((hwritten token rfl).mono hgrows)
  | initFlow url => exact .inl htoken
  | login actionUrl identifier password => exact .inl htoken
  | post url authorization queryStr vars => exact .inl htoken
  | sleep delay => exact .inl htoken

/-- The token is that of a new client, or it was issued. -/
def TokenOk (s : SessionState) : Prop := s.token = .null ∨ Issued s.log s.token

/-- The token was issued. -/
def HasToken (s : SessionState) : Prop := Issued s.log s.token

theorem stable_hasToken : otherTasks.Stable HasToken := by
  intro s s' hstep h
  rcases hstep.2 with htoken | hissued
  · unfold HasToken
    rw [htoken]
    exact h.mono hstep.1
  · exact hissued

theorem stable_tokenOk : otherTasks.Stable TokenOk := by
  intro s s' hstep h
  rcases h with hnull | hissued
  · rcases hstep.2 with htoken | hissued
    · exact .inl (htoken.trans hnull)
    · exact .inr hissued
  · exact .inr (stable_hasToken hstep hissued)

theorem stable_issued (token : Json) : otherTasks.Stable fun s => Issued s.log token :=
  fun _ _ hstep h => h.mono hstep.1

theorem stable_true : otherTasks.Stable fun _ => True := fun _ _ _ _ => trivial

/-! ## The methods of the client -/

/-- `Establishes` in the setting of the client. -/
abbrev Keeps {α : Type} (T : PythonText) (p : Querying α) (Q : α → SessionState → Prop)
    (s : SessionState) : Prop :=
  Establishes sessionWorld otherTasks (Guarded T) TokenOk p Q s

/-- A call that writes no token and sends none. -/
theorem guarded_of_world {s s' : SessionState} {c : SessionCall} {r : c.Answer}
    (hw : sessionWorld s c r s') (hwrite : ∀ token, c ≠ .writeToken token)
    (hpost : ∀ url authorization queryStr vars, c ≠ .post url authorization queryStr vars) :
    Guarded T s c r s' where
  world := hw
  written token h := absurd h (hwrite token)
  sent url authorization queryStr vars h := absurd h (hpost url authorization queryStr vars)

theorem tokenOk_of_guarded {s s' : SessionState} {c : SessionCall} {r : c.Answer}
    (h : Guarded T s c r s') (hs : TokenOk s) : TokenOk s' :=
  stable_tokenOk (h.otherTasks) hs

/-- What a task knows of the token that it has read. -/
def ReadToken (token : Json) (s : SessionState) : Prop :=
  token = .null ∨ Issued s.log token ∧ HasToken s

theorem stable_readToken (token : Json) : otherTasks.Stable (ReadToken token) := by
  intro s s' hstep h
  exact h.imp_right fun h => ⟨stable_issued token hstep h.1, stable_hasToken hstep h.2⟩

theorem readToken_of_world {s s' : SessionState} {token : Json}
    (hw : sessionWorld s .readToken token s') (hs : TokenOk s) : ReadToken token s' := by
  obtain ⟨hlog, rfl, htoken⟩ := hw
  refine hs.imp_right fun hissued => ?_
  have hlater : Issued s'.log s.token :=
    hissued.mono fun e he => hlog ▸ List.mem_append_left _ he
  refine ⟨hlater, ?_⟩
  unfold HasToken
  rw [htoken]
  exact hlater

theorem keeps_readToken {s : SessionState} (hs : TokenOk s) : Keeps T readToken ReadToken s := by
  refine establishes_call stable_tokenOk stable_true stable_readToken hs trivial ?_
  intro s token s' hs _ hw
  have hguarded : Guarded T s .readToken token s' := guarded_of_world hw nofun nofun
  refine ⟨hguarded, tokenOk_of_guarded hguarded hs, fun token' h => ?_⟩
  obtain rfl := Except.ok.inj h
  exact readToken_of_world hw hs

theorem keeps_writeToken {token : Json} {s : SessionState} (hs : TokenOk s)
    (hissued : Issued s.log token) : Keeps T (writeToken token) (fun _ => HasToken) s := by
  refine establishes_call stable_tokenOk (stable_issued token) (fun _ => stable_hasToken) hs
    hissued ?_
  intro s r s' hs hissued hw
  have hguarded : Guarded T s (.writeToken token) r s' := by
    refine ⟨hw, ?_, nofun⟩
    intro token' h
    obtain rfl := SessionCall.writeToken.inj h
    exact hissued
  obtain ⟨hlog, htoken⟩ := hw
  refine ⟨hguarded, tokenOk_of_guarded hguarded hs, fun _ _ => ?_⟩
  have hequal : s'.token = token := htoken
  unfold HasToken
  rw [hequal]
  exact hissued.mono fun e he => hlog ▸ List.mem_append_left _ he

theorem keeps_authenticate {s : SessionState} (hs : TokenOk s) :
    Keeps T client.authenticate (fun _ => HasToken) s := by
  refine Establishes.bind stable_tokenOk (Q := fun _ _ => True) ?_ fun actionUrl s hs _ => ?_
  · refine establishes_call stable_tokenOk stable_true (fun _ => stable_true) hs trivial ?_
    intro s r s' hs _ hw
    have hguarded : Guarded T s (.initFlow client.loginFlowUrl) r s' :=
      guarded_of_world hw nofun nofun
    exact ⟨hguarded, tokenOk_of_guarded hguarded hs, fun _ _ => trivial⟩
  · refine Establishes.bind stable_tokenOk (Q := fun token s => Issued s.log token) ?_
      fun token s hs hissued => keeps_writeToken hs hissued
    refine establishes_call stable_tokenOk stable_true stable_issued hs trivial ?_
    intro s r s' hs _ hw
    have hguarded : Guarded T s (.login actionUrl client.email client.password) r s' :=
      guarded_of_world hw nofun nofun
    refine ⟨hguarded, tokenOk_of_guarded hguarded hs, fun token htoken => ?_⟩
    refine ⟨⟨_, r⟩, hw.1 ▸ List.mem_append_right _ List.mem_cons_self, ?_⟩
    cases r with
    | error exc => cases htoken
    | ok answer =>
      have hvalue : sessionTokenOf answer = .ok token := htoken
      show (sessionTokenOf answer).toOption = some token
      rw [hvalue]
      rfl

theorem keeps_ensureToken {s : SessionState} (hs : TokenOk s) :
    Keeps T client.ensureToken (fun _ => HasToken) s := by
  refine Establishes.bind stable_tokenOk (keeps_readToken hs) fun token s hs htoken => ?_
  cases htruthy : token.truthy with
  | false =>
    simp only [Bool.false_eq_true, if_false]
    exact keeps_authenticate hs
  | true =>
    simp only [if_true]
    refine establishes_pure stable_tokenOk stable_hasToken hs ?_
    rcases htoken with rfl | hissued
    · cases htruthy
    · exact hissued.2

theorem ensures_attempt (queryStr : String) (vars : Json) {s : SessionState} (hs : HasToken s) :
    (client.attempt T queryStr vars).Ensures sessionWorld otherTasks (Guarded T)
      (fun _ s => HasToken s) s := by
  refine ensures_call stable_hasToken hs fun s token s' hs hw => ?_
  have hguarded : Guarded T s .readToken token s' := guarded_of_world hw nofun nofun
  have hstep := hguarded.otherTasks
  have hissued : Issued s'.log token := by
    obtain ⟨-, rfl, -⟩ := hw
    exact hs.mono hstep.1
  refine ⟨hguarded, ?_⟩
  refine ensures_call (stable_hasToken.and (stable_issued token))
    ⟨stable_hasToken hstep hs, hissued⟩ fun s r s' hs hw => ?_
  have hposted : Guarded T s (.post client.graphqlEndpoint (bearer T token) queryStr vars) r s' := by
    refine ⟨hw, nofun, ?_⟩
    intro url authorization queryStr' vars' h
    obtain ⟨-, rfl, -, -⟩ := SessionCall.post.inj h
    exact ⟨token, rfl, hs.2⟩
  refine ⟨hposted, ?_⟩
  have hlater := hposted.otherTasks
  exact ensures_done stable_hasToken (stable_hasToken hlater hs.1)

theorem ensures_pause (made : Nat) {s : SessionState} (hs : HasToken s) :
    (pause made).Ensures sessionWorld otherTasks (Guarded T) (fun _ s => HasToken s) s := by
  refine ensures_call stable_hasToken hs fun s r s' hs hw => ?_
  have hguarded : Guarded T s (.sleep (BASE_DELAY * 2 ^ made)) r s' :=
    guarded_of_world hw nofun nofun
  have hlater := hguarded.otherTasks
  exact ⟨hguarded, ensures_done stable_hasToken (stable_hasToken hlater hs)⟩

theorem keeps_query (queryStr : String) (vars : Option Fields) {s : SessionState}
    (hs : TokenOk s) : Keeps T (client.query T queryStr vars) (fun _ _ => True) s := by
  refine Establishes.bind stable_tokenOk (keeps_ensureToken hs) fun _ s _ htoken => ?_
  have hloop : (retry queryPolicy (client.attempt T queryStr (.obj (vars.getD []))) pause
      MAX_RETRIES).Ensures sessionWorld otherTasks (Guarded T) (fun _ s => HasToken s) s :=
    ensures_retry stable_hasToken (fun _ => ensures_attempt queryStr _)
      (fun made _ => ensures_pause made) MAX_RETRIES htoken
  exact hloop.mono fun _ s htoken => ⟨.inr htoken, fun _ _ => trivial⟩

theorem keeps_credentialToken {s : SessionState} (hs : TokenOk s) :
    Keeps T client.credentialToken ReadToken s :=
  Establishes.bind stable_tokenOk (keeps_ensureToken hs) fun _ _ hs _ => keeps_readToken hs

/-! ## Every interleaving -/

theorem ensures_callerProgram {α : Type} (caller : Program clientSignature α) {s : SessionState}
    (hs : TokenOk s) :
    (callerProgram T client caller).Ensures sessionWorld otherTasks (Guarded T)
      (fun _ s => TokenOk s) s := by
  refine ensures_expand stable_tokenOk (fun call s hs => ?_) caller hs
  cases call with
  | query queryStr vars => exact Ensures.mono (keeps_query queryStr vars hs) fun _ _ h => h.1
  | credentialToken => exact Ensures.mono (keeps_credentialToken hs) fun _ _ h => h.1

/-- However the tasks of a new client interleave, a query carries a token that a
login issued before it, and only such tokens become the session token. -/
theorem posts_carry_issued_tokens (T : PythonText) (client : GraphQLClient) {α : Type}
    (callers : List (Program clientSignature α)) {t : List (Event sessionSignature)}
    {tasks : List (Program sessionSignature α)} {s : SessionState}
    (hpool : Pool sessionWorld (callers.map (callerProgram T client)) newSession t tasks s)
    (pre post : List (Event sessionSignature)) (e : Event sessionSignature)
    (ht : t = pre ++ e :: post) :
    (∀ url authorization queryStr vars, e.call = .post url authorization queryStr vars →
      ∃ token, authorization = bearer T token ∧ Issued pre token) ∧
    ∀ token, e.call = .writeToken token → Issued pre token := by
  have htasks : ∀ p ∈ callers.map (callerProgram T client),
      p.Ensures sessionWorld otherTasks (Guarded T) (fun _ s => TokenOk s) newSession := by
    intro p hp
    obtain ⟨caller, -, rfl⟩ := List.mem_map.mp hp
    exact ensures_callerProgram caller (.inl rfl)
  have hguarded := hpool.sound (fun _ _ _ _ h => h.otherTasks) htasks
  subst ht
  obtain ⟨tasks₁, s₁, s₂, hpre, hstep⟩ := hguarded.split
  have hlog : s₁.log = pre := log_of_pool (hpre.mono fun s c r s' h => h.world)
  rw [← hlog]
  exact ⟨hstep.sent, hstep.written⟩

/-! ## Two tasks that both log in -/

def localClient : GraphQLClient where
  graphqlEndpoint := "http://localhost/graphql"
  kratosPublicUrl := "http://localhost/kratos/"
  email := "vc@localhost"
  password := "secret"

/-- A caller that makes one query. -/
def oneQuery : Program clientSignature Unit :=
  Program.call (S := clientSignature) (.query "me" none) fun _ => .done ()

def oneQueryTask : Program sessionSignature Unit := callerProgram asciiText localClient oneQuery

/-- What the servers answer: the token of a login is named after the calls that
were made before it. -/
def serverAnswer (s : SessionState) : (c : SessionCall) → c.Answer
  | .readToken => s.token
  | .writeToken _ => ()
  | .initFlow _ => .ok ⟨200, .ok (.obj [("ui", .obj [("action", .str "login")])])⟩
  | .login _ _ _ => .ok ⟨200, .ok (.obj [("session_token", .str (toString s.log.length))])⟩
  | .post _ _ _ _ => .ok ⟨200, .ok (.obj [("data", .obj [])])⟩
  | .sleep _ => ()

def sessionScript : Script sessionSignature SessionState := fun s c =>
  let token :=
    match c with
    | .writeToken token => token
    | _ => s.token
  (serverAnswer s c, ⟨token, s.log ++ [⟨c, serverAnswer s c⟩]⟩)

theorem sessionScript_world (s : SessionState) (c : SessionCall) :
    sessionWorld s c (sessionScript s c).1 (sessionScript s c).2 := by
  cases c <;> exact ⟨rfl, by first | exact ⟨rfl, rfl⟩ | rfl⟩

/-- The first task after it has read that there is no token. -/
def waitingTask : Program sessionSignature Unit :=
  match oneQueryTask with
  | .call .readToken next => next .null
  | task => task

/-- The state after this read. -/
def afterRead : SessionState := (sessionScript newSession .readToken).2

def secondRun : Unit × List (Event sessionSignature) × SessionState :=
  oneQueryTask.eval sessionScript afterRead

def firstRun : Unit × List (Event sessionSignature) × SessionState :=
  waitingTask.eval sessionScript secondRun.2.2

/-- The first task reads, then the second one runs, then the first one goes on. -/
def raceTrace : List (Event sessionSignature) :=
  ⟨.readToken, .null⟩ :: (secondRun.2.1 ++ firstRun.2.1)

theorem race_pool :
    Pool sessionWorld ([oneQuery, oneQuery].map (callerProgram asciiText localClient)) newSession
      raceTrace [.done (), .done ()] firstRun.2.2 := by
  have hsecond : Pool sessionWorld [waitingTask, oneQueryTask] afterRead secondRun.2.1
      [waitingTask, .done ()] secondRun.2.2 :=
    (eval_runs sessionScript_world oneQueryTask afterRead).pool [waitingTask] []
  have hfirst : Pool sessionWorld [waitingTask, .done ()] secondRun.2.2 firstRun.2.1
      [.done (), .done ()] firstRun.2.2 :=
    (eval_runs sessionScript_world waitingTask secondRun.2.2).pool [] [.done ()]
  have hpool : Pool sessionWorld [waitingTask, oneQueryTask] afterRead
      (secondRun.2.1 ++ firstRun.2.1) [.done (), .done ()] firstRun.2.2 := hsecond.append hfirst
  exact @Pool.step _ _ _ _ [] _ _ _ _ _ _ _ _ _ (sessionScript_world newSession .readToken) hpool

/-- The `Authorization` headers of the queries. -/
def authorizations (t : List (Event sessionSignature)) : List String :=
  t.filterMap fun e =>
    match e.call with
    | .post _ authorization _ _ => some authorization
    | _ => none

theorem posts_carry_issued_tokens_race :
    authorizations raceTrace = ["Bearer 3", "Bearer 8"] ∧
      ∀ pre e post, raceTrace = pre ++ e :: post →
        ∀ token, e.call = .writeToken token → Issued pre token :=
  ⟨by decide +kernel, fun pre e post ht =>
    (posts_carry_issued_tokens asciiText localClient [oneQuery, oneQuery] race_pool pre post e ht).2⟩

/-! ## A task that is alone -/

/-- No login has issued a token that is truthy. -/
def NoneIssued (log : List (Event sessionSignature)) : Prop :=
  ∀ token, Issued log token → token.truthy = false

/-- A truthy token that was issued is still there. -/
def Kept (s : SessionState) : Prop := s.token.truthy = true ∨ NoneIssued s.log

/-- A step of the world that begins a login only before a token was issued. -/
structure Alone (s : SessionState) (c : SessionCall) (r : c.Answer) (s' : SessionState) :
    Prop where
  world : sessionWorld s c r s'
  login : ∀ url, c = .initFlow url → NoneIssued s.log

theorem issued_append_iff {log : List (Event sessionSignature)} {e : Event sessionSignature}
    {token : Json} : Issued (log ++ [e]) token ↔ Issued log token ∨ issuedBy e = some token := by
  simp [Issued, or_and_right, exists_or]

/-- An event that issues no token leaves no new one. -/
theorem noneIssued_append {log : List (Event sessionSignature)} {e : Event sessionSignature}
    (h : NoneIssued log) (he : issuedBy e = none) : NoneIssued (log ++ [e]) := by
  intro token htoken
  rcases issued_append_iff.mp htoken with htoken | htoken
  · exact h token htoken
  · simp [he] at htoken

theorem kept_of_quiet {s s' : SessionState} {e : Event sessionSignature}
    (hlog : s'.log = s.log ++ [e]) (htoken : s'.token = s.token) (he : issuedBy e = none)
    (h : Kept s) : Kept s' := by
  unfold Kept
  rw [hlog, htoken]
  exact h.imp_right fun hnone => noneIssued_append hnone he

/-- `Ensures` for a task that is alone. -/
abbrev EnsuresAlone {α : Type} (p : Program sessionSignature α) (Q : α → SessionState → Prop)
    (s : SessionState) : Prop :=
  p.Ensures sessionWorld .none Alone Q s

theorem alone_readToken {α : Type} {next : Json → Program sessionSignature α}
    {Q : α → SessionState → Prop} {s : SessionState} (hs : Kept s)
    (h : ∀ token s, Kept s → token = s.token → EnsuresAlone (next token) Q s) :
    EnsuresAlone (Program.call (S := sessionSignature) .readToken next) Q s := by
  refine ensures_call (stable_none Kept) hs fun s token s' hs hw => ⟨⟨hw, nofun⟩, ?_⟩
  obtain ⟨hlog, hread, htoken⟩ := hw
  exact h token s' (kept_of_quiet hlog htoken rfl hs) (hread.trans htoken.symm)

theorem alone_writeToken {token : Json} {s : SessionState}
    (hs : ∀ other, Issued s.log other → other.truthy = true → other = token) :
    EnsuresAlone (writeToken token).run (fun _ => Kept) s := by
  refine ensures_call (stable_none fun s => ∀ other, Issued s.log other → other.truthy = true →
    other = token) hs fun s r s' hs hw => ?_
  refine ⟨⟨hw, nofun⟩, ensures_done (stable_none _) ?_⟩
  obtain ⟨hlog, htoken⟩ := hw
  have hequal : s'.token = token := htoken
  unfold Kept
  rw [hlog, hequal]
  cases htruthy : token.truthy with
  | true => exact .inl rfl
  | false =>
    refine .inr (noneIssued_append (fun other hother => ?_) rfl)
    by_contra hne
    have hother' : other.truthy = true := by simpa using hne
    rw [hs other hother hother', htruthy] at hother'
    cases hother'

theorem alone_authenticate {s : SessionState} (hs : NoneIssued s.log) :
    EnsuresAlone client.authenticate.run (fun _ => Kept) s := by
  refine Ensures.bind (Q := fun _ s => NoneIssued s.log) ?_ fun r s hs => ?_
  · refine ensures_call (stable_none fun s => NoneIssued s.log) hs fun s r s' hs hw => ?_
    exact ⟨⟨hw, fun _ _ => hs⟩, ensures_done (stable_none _) (hw.1 ▸ noneIssued_append hs rfl)⟩
  cases r with
  | error exc => exact ensures_done (stable_none _) (.inr hs)
  | ok actionUrl =>
    refine Ensures.bind
      (Q := fun r s => ∀ other, Issued s.log other → other.truthy = true → r = .ok other)
      ?_ fun r s hs => ?_
    · refine ensures_call (stable_none fun s => NoneIssued s.log) hs fun s r s' hs hw => ?_
      refine ⟨⟨hw, nofun⟩, ensures_done (stable_none _) ?_⟩
      intro other hother htruthy
      rw [hw.1, issued_append_iff] at hother
      rcases hother with hother | hother
      · rw [hs other hother] at htruthy
        cases htruthy
      · cases r with
        | error exc => cases hother
        | ok answer =>
          have hvalue : (sessionTokenOf answer).toOption = some other := hother
          show sessionTokenOf answer = .ok other
          cases hanswer : sessionTokenOf answer with
          | error exc => simp [hanswer, Except.toOption] at hvalue
          | ok token =>
            rw [hanswer] at hvalue
            rw [Option.some.inj hvalue]
    cases r with
    | error exc =>
      refine ensures_done (stable_none _) (.inr fun other hother => ?_)
      by_contra hne
      exact absurd (hs other hother (by simpa using hne)) nofun
    | ok token =>
      exact alone_writeToken fun other hother htruthy =>
        (Except.ok.inj (hs other hother htruthy)).symm

theorem alone_ensureToken {s : SessionState} (hs : Kept s) :
    EnsuresAlone client.ensureToken.run (fun _ => Kept) s := by
  refine alone_readToken hs fun token s hs htoken => ?_
  subst htoken
  show EnsuresAlone
    (if s.token.truthy then pure () else client.authenticate : Querying Unit).run _ s
  cases htruthy : s.token.truthy with
  | false =>
    have hnone : NoneIssued s.log := hs.resolve_left (by simp [htruthy])
    exact alone_authenticate hnone
  | true => exact ensures_done (stable_none Kept) (Or.inl htruthy)

theorem alone_attempt (queryStr : String) (vars : Json) {s : SessionState} (hs : Kept s) :
    EnsuresAlone (client.attempt T queryStr vars) (fun _ => Kept) s := by
  refine alone_readToken hs fun token s hs _ => ?_
  refine ensures_call (stable_none Kept) hs fun s r s' hs hw => ?_
  exact ⟨⟨hw, nofun⟩, ensures_done (stable_none _) (kept_of_quiet hw.1 hw.2 rfl hs)⟩

theorem alone_pause (made : Nat) {s : SessionState} (hs : Kept s) :
    EnsuresAlone (pause made) (fun _ => Kept) s := by
  refine ensures_call (stable_none Kept) hs fun s r s' hs hw => ?_
  exact ⟨⟨hw, nofun⟩, ensures_done (stable_none _) (kept_of_quiet hw.1 hw.2 rfl hs)⟩

theorem alone_clientCall (call : ClientCall) {s : SessionState} (hs : Kept s) :
    EnsuresAlone (clientCall T client call) (fun _ => Kept) s := by
  cases call with
  | query queryStr vars =>
    refine Ensures.bind (alone_ensureToken hs) fun r s hs => ?_
    cases r with
    | error exc => exact ensures_done (stable_none _) hs
    | ok _ =>
      show EnsuresAlone (retry queryPolicy (client.attempt T queryStr (.obj (vars.getD [])))
        pause MAX_RETRIES) _ s
      exact ensures_retry (stable_none Kept) (fun _ => alone_attempt queryStr _)
        (fun made _ => alone_pause made) MAX_RETRIES hs
  | credentialToken =>
    refine Ensures.bind (alone_ensureToken hs) fun r s hs => ?_
    cases r with
    | error exc => exact ensures_done (stable_none _) hs
    | ok _ => exact alone_readToken hs fun _ _ hs _ => ensures_done (stable_none _) hs

/-- A caller that has the client to itself begins no login once a login has
issued a truthy token. -/
theorem no_login_with_token (T : PythonText) (client : GraphQLClient) {α : Type}
    (caller : Program clientSignature α) {t : List (Event sessionSignature)} {a : α}
    {s : SessionState} (hrun : Runs sessionWorld (callerProgram T client caller) newSession t a s)
    (pre post : List (Event sessionSignature)) (e : Event sessionSignature)
    (ht : t = pre ++ e :: post) (url : String) (he : e.call = .initFlow url) :
    NoneIssued pre := by
  have hkept : Kept newSession := .inr fun token hissued => by
    obtain ⟨e, he, -⟩ := hissued
    cases he
  have htask : EnsuresAlone (callerProgram T client caller) (fun _ => Kept) newSession :=
    ensures_expand (stable_none Kept) (fun call _ => alone_clientCall call) caller hkept
  have hpool := (htask.guarantee hrun).pool [] []
  subst ht
  obtain ⟨tasks, s₁, s₂, hpre, hstep⟩ := hpool.split
  have hlog : s₁.log = pre := log_of_pool (hpre.mono fun s c r s' h => h.world)
  rw [← hlog]
  exact hstep.login url he

/-! ## One task with two queries -/

/-- A caller that makes two queries. -/
def twoQueries : Program clientSignature Unit :=
  Program.call (S := clientSignature) (.query "me" none) fun _ => oneQuery

def twoQueriesRun : Unit × List (Event sessionSignature) × SessionState :=
  (callerProgram asciiText localClient twoQueries).eval sessionScript newSession

theorem no_login_with_token_twice :
    authorizations twoQueriesRun.2.1 = ["Bearer 2", "Bearer 2"] ∧
      ∀ pre e post, twoQueriesRun.2.1 = pre ++ e :: post →
        ∀ url, e.call = .initFlow url → NoneIssued pre :=
  ⟨by decide +kernel, fun pre e post ht =>
    no_login_with_token asciiText localClient twoQueries
      (eval_runs sessionScript_world _ newSession) pre post e ht⟩

end VirtualContributor.Plugins
