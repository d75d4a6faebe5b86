import HelloCounter.Library.Protocol
import HelloCounter.Renewal.System

/-! The pairs that a deploy writes.  The renewal job reads and updates the two halves of a pair one
after the other; its protocol has a phase for the time between the two reads and one for the time
between the two updates, and the secrets hold matching pairs in every other phase. -/

namespace HelloCounter.Renewal

open Effect
open Deploy (Text Bytes AppDir Awk dirAfter renderInfra configured)

inductive Phase where
  | settled
  /-- The site's certificate has been read, and its key has not. -/
  | read (site : Site) (cert : Text)
  /-- The site's certificate has been updated, and its key has not. -/
  | torn (site : Site) (cert : Text)

variable (issuedFor : Bytes → Bytes → Prop)

def pairsProtocol : Protocol Runner Phase where
  may
    | .settled, .extract _ half => half = .cert
    | .settled, .setSecret _ half _ => half = .cert
    | .settled, _ => True
    | .read site _, .extract site' half => site' = site ∧ half = .key
    | .torn site cert, .setSecret site' half body =>
      site' = site ∧ half = .key ∧ Matching issuedFor cert body
    | _, _ => False
  moves
    | .settled, .extract site _, reply, phase' =>
      phase' = match reply with
        | none => .settled
        | some cert => .read site cert
    | .read _ cert, .extract _ _, reply, phase' =>
      phase' = .settled ∧ ∀ key, reply = some key → Matching issuedFor cert key
    | .settled, .setSecret site _ body, ok, phase' =>
      phase' = if ok then .torn site body else .settled
    | _, _, _, phase' => phase' = .settled

/-- The program keeps to the protocol and returns in the settled phase. -/
def Settles {α : Type} (post : α → Prop) : Job α → Phase → Prop :=
  Prog.Obeys (pairsProtocol issuedFor) fun value phase => phase = .settled ∧ post value

variable {issuedFor}

/-! ### The job keeps to the protocol -/

theorem Settles.bind {α β : Type} {post : α → Prop} {post' : β → Prop} {p : Job α}
    {f : α → Job β} {phase : Phase} (h : Settles issuedFor post p phase)
    (hNext : ∀ value, post value → Settles issuedFor post' (f value) .settled) :
    Settles issuedFor post' (p >>= f) phase := by
  apply Prog.Obeys.bind
  apply Prog.Obeys.imp h
  rintro value phase ⟨rfl, hPost⟩
  exact hNext value hPost

theorem settles_ret {α : Type} {post : α → Prop} {value : α} (h : post value) :
    Settles issuedFor post (.ret value) .settled := ⟨rfl, h⟩

theorem settles_perform (op : Op) (may : (pairsProtocol issuedFor).may .settled op)
    (stays : ∀ reply phase, (pairsProtocol issuedFor).moves .settled op reply phase →
      phase = .settled) :
    Settles issuedFor (fun _ => True) (Prog.perform (E := Runner) op) .settled :=
  Prog.obeys_perform may fun reply phase h => ⟨stays reply phase h, trivial⟩

theorem settles_notBefore (site : Site) :
    Settles issuedFor (fun _ => True) (notBefore site) .settled :=
  settles_perform (.notBefore site) trivial fun _ _ h => h

theorem settles_triggerDeploy : Settles issuedFor (fun _ => True) triggerDeploy .settled := by
  apply (settles_perform .triggerDeploy trivial fun _ _ h => h).bind
  intro ok _
  cases ok <;> exact settles_ret trivial

theorem settles_attemptLoop (before wwwBefore : String) (left : Nat) (renewed wwwRenewed : Bool) :
    Settles issuedFor (fun _ => True) (attemptLoop before wwwBefore left renewed wwwRenewed)
      .settled := by
  induction left generalizing renewed wwwRenewed with
  | zero => exact settles_ret trivial
  | succ left ih =>
    apply (settles_perform .renew trivial fun _ _ h => h).bind
    intro _ _
    apply (settles_notBefore .apex).bind
    intro after _
    apply (settles_notBefore .www).bind
    intro wwwAfter _
    dsimp only
    split
    · exact settles_ret trivial
    · apply (settles_perform (.sleep 30) trivial fun _ _ h => h).bind
      intro _ _
      exact ih _ _

theorem settles_extractPair (site : Site) : Settles issuedFor
    (fun pair => ∀ halves, pair = some halves → Matching issuedFor halves.1 halves.2)
    (extractPair site) .settled := by
  refine ⟨rfl, fun cert phase hPhase => ?_⟩
  subst hPhase
  cases cert with
  | none => exact settles_ret fun _ h => nomatch h
  | some cert =>
    refine ⟨⟨rfl, rfl⟩, ?_⟩
    rintro key phase ⟨rfl, hMatching⟩
    cases key with
    | none => exact settles_ret fun _ h => nomatch h
    | some key =>
      refine settles_ret ?_
      rintro halves ⟨⟩
      exact hMatching key rfl

theorem settles_setPair (site : Site) {pair : Text × Text}
    (hPair : Matching issuedFor pair.1 pair.2) :
    Settles issuedFor (fun _ => True) (setPair site pair) .settled := by
  refine ⟨rfl, fun ok phase hPhase => ?_⟩
  subst hPhase
  cases ok with
  | false => exact settles_ret trivial
  | true => exact ⟨⟨rfl, rfl, hPair⟩, fun _ _ h => ⟨h, trivial⟩⟩

theorem settles_updateSecrets {apex : Text × Text} {www : Option (Text × Text)}
    (hApex : Matching issuedFor apex.1 apex.2)
    (hWww : ∀ halves, www = some halves → Matching issuedFor halves.1 halves.2) :
    Settles issuedFor (fun _ => True) (updateSecrets apex www) .settled := by
  apply (settles_setPair .apex hApex).bind
  intro ok _
  cases ok with
  | false => exact settles_ret trivial
  | true =>
    cases www with
    | none => exact settles_triggerDeploy
    | some www =>
      apply (settles_setPair .www (hWww www rfl)).bind
      intro ok _
      cases ok with
      | false => exact settles_ret trivial
      | true => exact settles_triggerDeploy

theorem settles_publish (renewed wwwRenewed : Bool) :
    Settles issuedFor (fun _ => True) (publish renewed wwwRenewed) .settled := by
  cases renewed with
  | false => exact settles_ret trivial
  | true =>
    apply (settles_extractPair .apex).bind
    intro apex hApex
    cases apex with
    | none => exact settles_ret trivial
    | some apex =>
      cases wwwRenewed with
      | false =>
        show Settles issuedFor _ (updateSecrets apex none) .settled
        exact settles_updateSecrets (hApex apex rfl) fun _ h => nomatch h
      | true =>
        apply (settles_extractPair .www).bind
        intro www hWww
        cases www with
        | none => exact settles_ret trivial
        | some www =>
          apply settles_updateSecrets (hApex apex rfl)
          rintro halves ⟨⟩
          exact hWww www rfl

theorem settles_renewCert : Settles issuedFor (fun _ => True) renewCert .settled := by
  apply (settles_notBefore .apex).bind
  intro before _
  apply (settles_notBefore .www).bind
  intro wwwBefore _
  apply (settles_attemptLoop before wwwBefore 3 false false).bind
  intro flags _
  exact settles_publish flags.1 flags.2

/-! ### The stores in each phase -/

/-- What holds of the stores while the job is in a phase. -/
def Phase.At (stores : Stores issuedFor) : Phase → Prop
  | .settled => ∀ site, Matching issuedFor (stores.secrets site .cert) (stores.secrets site .key)
  | .read site cert =>
    (∀ site, Matching issuedFor (stores.secrets site .cert) (stores.secrets site .key)) ∧
      ∃ pair, stores.caddy site = some pair ∧ cert = Deploy.writeBase64File pair.cert
  | .torn site cert => stores.secrets site .cert = cert ∧
      ∀ other, other ≠ site →
        Matching issuedFor (stores.secrets other .cert) (stores.secrets other .key)

/-- The job is in a phase that agrees with the stores, and a deploy run holds matching pairs. -/
structure Inv (s : State issuedFor) : Prop where
  job : ∃ phase, Settles issuedFor (fun _ => True) s.job phase ∧ phase.At s.stores
  deploy : ∀ run, s.deploy = some run → ∀ site,
    Matching issuedFor (run.secrets site .cert) (run.secrets site .key)

theorem matching_of_pair (pair : IssuedPair issuedFor) :
    Matching issuedFor (Deploy.writeBase64File pair.cert) (Deploy.writeBase64File pair.key) :=
  ⟨pair, Deploy.decode_writeBase64File _, Deploy.decode_writeBase64File _⟩

theorem Stores.setSecret_same (stores : Stores issuedFor) (site : Site) (half : Half)
    (body : Text) : (stores.setSecret site half body).secrets site =
      Function.update (stores.secrets site) half body := Function.update_self ..

theorem Stores.setSecret_other (stores : Stores issuedFor) {site other : Site} (h : other ≠ site)
    (half : Half) (body : Text) :
    (stores.setSecret site half body).secrets other = stores.secrets other :=
  Function.update_of_ne h _ _

/-- Updating the key settles a torn pair. -/
theorem Phase.At.setKey {stores : Stores issuedFor} {site : Site} {cert key : Text}
    (h : (Phase.torn site cert).At stores) (hKey : Matching issuedFor cert key) :
    Phase.settled.At (stores.setSecret site .key key) := by
  intro other
  by_cases hOther : other = site
  · subst hOther
    rw [stores.setSecret_same, Function.update_self, Function.update_of_ne (by decide), h.1]
    exact hKey
  · rw [stores.setSecret_other hOther]
    exact h.2 other hOther

theorem Phase.At.setCert {stores : Stores issuedFor} (h : Phase.settled.At stores) (site : Site)
    (cert : Text) : (Phase.torn site cert).At (stores.setSecret site .cert cert) := by
  constructor
  · rw [stores.setSecret_same, Function.update_self]
  · intro other hOther
    rw [stores.setSecret_other hOther]
    exact h other

/-! ### Steps -/

variable {s s' : State issuedFor} {awk : Awk}

/-- A reply leads to a phase that agrees with the stores after it. -/
theorem reply_moves {phase : Phase} {op : Op} {reply : op.Reply} {event : Event}
    {stores : Stores issuedFor} (answered : Reply op reply event s.stores stores)
    (careful : Careful s event) (may : (pairsProtocol issuedFor).may phase op)
    (inPhase : phase.At s.stores) :
    ∃ phase', (pairsProtocol issuedFor).moves phase op reply phase' ∧ phase'.At stores := by
  cases phase with
  | settled =>
    cases answered with
    | notBefore date => exact ⟨.settled, rfl, inPhase⟩
    | renew => exact ⟨.settled, rfl, inPhase⟩
    | sleep => exact ⟨.settled, rfl, inPhase⟩
    | trigger ok => exact ⟨.settled, rfl, inPhase⟩
    | readFailed => exact ⟨.settled, rfl, inPhase⟩
    | @read site half text n printed =>
      obtain rfl : half = .cert := may
      obtain ⟨pair, hCaddy, hText⟩ := careful
      exact ⟨.read site text, rfl, inPhase, pair, hCaddy, hText⟩
    | @set site half body =>
      obtain rfl : half = .cert := may
      exact ⟨.torn site body, rfl, inPhase.setCert site body⟩
    | @setFailed site half body _ applied =>
      obtain rfl : half = .cert := may
      have careful : Half.cert = .key ↔ applied = true := careful
      obtain rfl : applied = false := by simpa using careful
      exact ⟨.settled, rfl, inPhase⟩
  | read site cert =>
    obtain ⟨hSecrets, pair, hCaddy, hCert⟩ := inPhase
    cases answered with
    | readFailed => exact ⟨.settled, ⟨rfl, fun _ h => nomatch h⟩, hSecrets⟩
    | @read site' half text n printed =>
      obtain ⟨rfl, rfl⟩ : site' = site ∧ half = .key := may
      obtain ⟨pair', hCaddy', hText⟩ := careful
      obtain rfl : pair' = pair := Option.some_inj.mp (hCaddy'.symm.trans hCaddy)
      refine ⟨.settled, ⟨rfl, ?_⟩, hSecrets⟩
      rintro key ⟨⟩
      rw [hCert, hText]
      exact matching_of_pair pair'
    | notBefore | renew | sleep | trigger | set | setFailed => exact may.elim
  | torn site cert =>
    cases answered with
    | @set site' half body =>
      obtain ⟨rfl, rfl, hKey⟩ : site' = site ∧ half = .key ∧ Matching issuedFor cert body := may
      exact ⟨.settled, rfl, inPhase.setKey hKey⟩
    | @setFailed site' half body _ applied =>
      obtain ⟨rfl, rfl, hKey⟩ : site' = site ∧ half = .key ∧ Matching issuedFor cert body := may
      have careful : Half.key = .key ↔ applied = true := careful
      obtain rfl : applied = true := careful.mp rfl
      exact ⟨.settled, rfl, inPhase.setKey hKey⟩
    | notBefore | renew | sleep | trigger | read | readFailed => exact may.elim

theorem Settles.read_waits {α : Type} {post : α → Prop} {p : Job α} {site : Site} {cert : Text}
    (h : Settles issuedFor post p (.read site cert)) :
    ∃ next, p = .call (.extract site .key) next := by
  cases p with
  | ret value => exact absurd h.1 (by simp)
  | call op next =>
    cases op with
    | extract site' half =>
      obtain ⟨rfl, rfl⟩ : site' = site ∧ half = .key := h.1
      exact ⟨next, rfl⟩
    | notBefore | renew | sleep | setSecret | triggerDeploy => exact h.1.elim

theorem Settles.torn_waits {α : Type} {post : α → Prop} {p : Job α} {site : Site} {cert : Text}
    (h : Settles issuedFor post p (.torn site cert)) :
    ∃ body next, p = .call (.setSecret site .key body) next := by
  cases p with
  | ret value => exact absurd h.1 (by simp)
  | call op next =>
    cases op with
    | setSecret site' half body =>
      obtain ⟨rfl, rfl, -⟩ : site' = site ∧ half = .key ∧ Matching issuedFor cert body := h.1
      exact ⟨body, next, rfl⟩
    | notBefore | renew | sleep | extract | triggerDeploy => exact h.1.elim

theorem inv_start (start : Start s) : Inv s := by
  obtain ⟨outcome, hJob⟩ := start.job
  constructor
  · rw [hJob]
    exact ⟨.settled, settles_ret trivial, start.secrets⟩
  · intro run hRun
    rw [start.deploy] at hRun
    cases hRun

theorem step_inv {event : Event} (step : Step awk s event s') (careful : Careful s event)
    (inv : Inv s) : Inv s' := by
  obtain ⟨phase, hSettles, inPhase⟩ := inv.job
  cases step with
  | @caddyRenewed site pair =>
    refine ⟨⟨phase, hSettles, ?_⟩, inv.deploy⟩
    cases phase with
    | settled => exact inPhase
    | torn => exact inPhase
    | read site' cert =>
      obtain ⟨next, hWaits⟩ := hSettles.read_waits
      have hOther : site' ≠ site := by
        rintro rfl
        exact careful next hWaits
      obtain ⟨hSecrets, pair', hCaddy, hCert⟩ := inPhase
      exact ⟨hSecrets, pair', (Function.update_of_ne hOther _ _).trans hCaddy, hCert⟩
  | jobStarted idle =>
    rw [idle] at hSettles
    obtain rfl : phase = .settled := hSettles.1
    exact ⟨⟨.settled, settles_renewCert, inPhase⟩, inv.deploy⟩
  | @replied op next reply _ stores waits answered =>
    rw [waits] at hSettles
    obtain ⟨phase', hMoves, inPhase'⟩ := reply_moves answered careful hSettles.1 inPhase
    exact ⟨⟨phase', hSettles.2 reply phase' hMoves, inPhase'⟩, inv.deploy⟩
  | deployStarted main idle =>
    refine ⟨⟨phase, hSettles, inPhase⟩, ?_⟩
    rintro run ⟨⟩
    cases phase with
    | settled => exact inPhase
    | read => exact inPhase.1
    | torn site cert =>
      obtain ⟨body, next, hWaits⟩ := hSettles.torn_waits
      exact absurd hWaits (careful site body next)
  | @rendered run node left template running hLeft =>
    refine ⟨⟨phase, hSettles, inPhase⟩, ?_⟩
    rintro run' ⟨⟩
    exact inv.deploy run running
  | deployEnded =>
    refine ⟨⟨phase, hSettles, inPhase⟩, ?_⟩
    rintro run ⟨⟩

theorem run_inv (start : Start s) (run : Reach.Run (Step awk) Careful s s') : Inv s' :=
  run.inv (inv_start start) fun _ _ _ => step_inv

/-! ### What a deploy writes -/

theorem matching_ne_nil {cert key : Text} (h : Matching issuedFor cert key) :
    cert ≠ [] ∧ key ≠ [] := by
  obtain ⟨pair, hCert, hKey⟩ := h
  constructor
  · rintro rfl
    exact pair.cert_ne_nil (congrArg Prod.fst hCert).symm
  · rintro rfl
    exact pair.key_ne_nil (congrArg Prod.fst hKey).symm

theorem env_pair (run : DeployRun) (node : Node) (site : Site) :
    run.env node site.pair.certVar = run.secrets site .cert ∧
      run.env node site.pair.keyVar = run.secrets site .key := by
  cases site <;> exact ⟨rfl, rfl⟩

theorem sourceHost_env (run : DeployRun) {node : Node} (other : node ≠ .server1) :
    Deploy.sourceHost (run.env node) = false := by
  have hVar : run.env node "NOFEEBOOKING_TLS_SOURCE_HOST" = "false".toList := by
    show node.isSource = _
    rw [Node.isSource, if_neg other]
  rw [Deploy.sourceHost, Deploy.Env.getD, hVar]
  decide

theorem render_intact {run : DeployRun} {node : Node} (other : node ≠ .server1) {site : Site}
    (hMatching : Matching issuedFor (run.secrets site .cert) (run.secrets site .key))
    (awk : Awk) (dir : AppDir) :
    Intact issuedFor dir (dirAfter (renderInfra awk (run.env node) dir)) site := by
  obtain ⟨hCertVar, hKeyVar⟩ := env_pair run node site
  obtain ⟨hCert, hKey⟩ := matching_ne_nil hMatching
  have hUsed : configured (run.env node) site.pair = true := by
    simp [configured, Deploy.CertPair.complete, hCertVar, hKeyVar, hCert, hKey,
      sourceHost_env run other]
  have hPair : site.pair ∈ [Deploy.mainPair, Deploy.nofeebookingPair, Deploy.wwwPair] := by
    cases site <;> simp [Site.pair]
  obtain ⟨pair, hCertBytes, hKeyBytes⟩ := hMatching
  rw [← hCertVar] at hCertBytes
  rw [← hKeyVar] at hKeyBytes
  have hFiles :=
    Deploy.renderInfra_pair awk hPair hUsed (by rw [hCertBytes]) (by rw [hKeyBytes]) dir
  rw [hCertBytes, hKeyBytes] at hFiles
  exact hFiles.imp id fun h => ⟨pair, h⟩

/-- In a run of careful steps from matching secrets, a deploy leaves each pair on a host other than
the source as it was, or writes a certificate with the key it was issued for. -/
theorem rendered_intact {start : State issuedFor} (hStart : Start start)
    (run : Reach.Run (Step awk) Careful start s) {node : Node}
    (step : Step awk s (.rendered node) s') (other : node ≠ .server1) (site : Site) :
    Intact issuedFor (s.hosts node) (s'.hosts node) site := by
  have inv := run_inv hStart run
  cases step with
  | replied waits answered => cases answered
  | @rendered deploy _ left template running hLeft =>
    show Intact issuedFor _ (Function.update s.hosts node _ node) site
    rw [Function.update_self]
    exact render_intact other (inv.deploy deploy running site) awk
      { s.hosts node with template := some template }

/-! ### A deploy between two runs of the job, and one between two updates -/

/-- Pairs in which the certificate and the key are the same byte. -/
def bytePair (byte : UInt8) : IssuedPair fun cert key => cert = key :=
  ⟨[byte], [byte], rfl, by simp, by simp⟩

def blankDir : AppDir := ⟨"infra", none, none, fun _ => none⟩

def quietState : State fun cert key => cert = key where
  stores := ⟨fun _ => some (bytePair 1), fun _ _ => Deploy.writeBase64File [1]⟩
  job := .ret (.ok ())
  deploy := none
  hosts := fun _ => blankDir

theorem quietState_start : Start quietState where
  job := ⟨_, rfl⟩
  deploy := rfl
  secrets := fun _ => matching_of_pair (bytePair 1)

/-- Both certificates are renewed and all four secrets updated, and the deploy that the job triggers
reaches the second server. -/
theorem renewal_intact : ∃ s s' : State fun cert key => cert = key,
    Reach.Run (Step Awk.plain) Careful quietState s ∧ Step Awk.plain s (.rendered .server2) s' ∧
    (s'.hosts .server2).tls "nofeebooking.crt" = some [2] ∧
    ∀ site, Intact (fun cert key => cert = key) (s.hosts .server2) (s'.hosts .server2) site := by
  have run : Reach.Run (Step Awk.plain) Careful quietState quietState := .refl
  have run := run.tail ⟨_, .jobStarted rfl, trivial⟩
  have run := run.tail ⟨_, .replied rfl (.notBefore "Jan 15"), trivial⟩
  have run := run.tail ⟨_, .replied rfl (.notBefore "Jan 15"), trivial⟩
  have run := run.tail ⟨_, .replied rfl .renew, trivial⟩
  have run := run.tail ⟨.caddyRenewed .apex, .caddyRenewed (bytePair 2), fun _ h => nomatch h⟩
  have run := run.tail ⟨.caddyRenewed .www, .caddyRenewed (bytePair 2), fun _ h => nomatch h⟩
  have run := run.tail ⟨_, .replied rfl (.notBefore "Mar 16"), trivial⟩
  have run := run.tail ⟨_, .replied rfl (.notBefore "Mar 16"), trivial⟩
  -- Each read prints the whole file.
  have run := run.tail ⟨_, .replied rfl (.read 1 rfl), bytePair 2, rfl, rfl⟩
  have run := run.tail ⟨_, .replied rfl (.read 1 rfl), bytePair 2, rfl, rfl⟩
  have run := run.tail ⟨_, .replied rfl (.read 1 rfl), bytePair 2, rfl, rfl⟩
  have run := run.tail ⟨_, .replied rfl (.read 1 rfl), bytePair 2, rfl, rfl⟩
  have run := run.tail ⟨_, .replied rfl .set, trivial⟩
  have run := run.tail ⟨_, .replied rfl .set, trivial⟩
  have run := run.tail ⟨_, .replied rfl .set, trivial⟩
  have run := run.tail ⟨_, .replied rfl .set, trivial⟩
  have run := run.tail ⟨_, .replied rfl (.trigger true), trivial⟩
  have run := run.tail ⟨_, .deployStarted (fun _ => []) rfl, fun _ _ _ h => nomatch h⟩
  have run := run.tail ⟨_, .rendered [] rfl rfl, trivial⟩
  refine ⟨_, _, run, .rendered [] rfl rfl, ?_, ?_⟩
  · decide
  · exact rendered_intact quietState_start run (.rendered [] rfl rfl) (by decide)

/-- Both certificates are renewed, and a deploy starts after the first of the updates. -/
theorem split_update_torn : ¬∀ (issuedFor : Bytes → Bytes → Prop) (awk : Awk)
    (start s s' : State issuedFor) (node : Node), Start start →
      Reach.Run (Step awk) (fun _ _ => True) start s →
      Step awk s (.rendered node) s' → node ≠ .server1 →
      ∀ site, Intact issuedFor (s.hosts node) (s'.hosts node) site := by
  intro h
  have run : Reach.Run (Step Awk.plain) (fun _ _ => True) quietState quietState := .refl
  have run := run.tail ⟨_, .jobStarted rfl, trivial⟩
  have run := run.tail ⟨_, .replied rfl (.notBefore "Jan 15"), trivial⟩
  have run := run.tail ⟨_, .replied rfl (.notBefore "Jan 15"), trivial⟩
  have run := run.tail ⟨_, .replied rfl .renew, trivial⟩
  have run := run.tail ⟨.caddyRenewed .apex, .caddyRenewed (bytePair 2), trivial⟩
  have run := run.tail ⟨.caddyRenewed .www, .caddyRenewed (bytePair 2), trivial⟩
  have run := run.tail ⟨_, .replied rfl (.notBefore "Mar 16"), trivial⟩
  have run := run.tail ⟨_, .replied rfl (.notBefore "Mar 16"), trivial⟩
  have run := run.tail ⟨_, .replied rfl (.read 1 rfl), trivial⟩
  have run := run.tail ⟨_, .replied rfl (.read 1 rfl), trivial⟩
  have run := run.tail ⟨_, .replied rfl (.read 1 rfl), trivial⟩
  have run := run.tail ⟨_, .replied rfl (.read 1 rfl), trivial⟩
  have run := run.tail ⟨_, .replied rfl .set, trivial⟩
  have run := run.tail ⟨_, .deployStarted (fun _ => []) rfl, trivial⟩
  have run := run.tail ⟨_, .rendered [] rfl rfl, trivial⟩
  rcases h _ _ _ _ _ _ quietState_start run (.rendered [] rfl rfl) (by decide) .apex with
    ⟨hCrt, -⟩ | ⟨pair, hCrt, hKey⟩
  · exact absurd hCrt (by decide)
  · have hCert : pair.cert = [2] := (Option.some_inj.mp hCrt).symm
    have hKey : pair.key = [1] := (Option.some_inj.mp hKey).symm
    have hSame := pair.issued
    rw [hCert, hKey] at hSame
    exact absurd hSame (by decide)

end HelloCounter.Renewal
