import HelloCounter.Deploy.RenderFailure
import HelloCounter.Library.Reach
import HelloCounter.Renewal.Workflow
import Mathlib

/-! Runs of the renewal workflow among runs of `.github/workflows/deploy-infra.yml` and renewals
that Caddy performs.  Each workflow is in a concurrency group of its own that never cancels a run,
so that at most one run of each is in progress. -/

namespace HelloCounter.Renewal

open Effect
open Deploy (Text Bytes Env AppDir CertPair Awk dirAfter renderInfra)

/-- A certificate and the key it was issued for. -/
structure IssuedPair (issuedFor : Bytes → Bytes → Prop) where
  cert : Bytes
  key : Bytes
  issued : issuedFor cert key
  cert_ne_nil : cert ≠ []
  key_ne_nil : key ≠ []

variable {issuedFor : Bytes → Bytes → Prop}

def IssuedPair.half (pair : IssuedPair issuedFor) : Half → Bytes
  | .cert => pair.cert
  | .key => pair.key

inductive Node where
  | server1
  | server2
  | server3
deriving DecidableEq

def Site.pair : Site → CertPair
  | .apex => Deploy.nofeebookingPair
  | .www => Deploy.wwwPair

/-- Caddy's certificates on server_1, and the secrets of the repository. -/
structure Stores (issuedFor : Bytes → Bytes → Prop) where
  caddy : Site → Option (IssuedPair issuedFor)
  secrets : Site → Half → Text

namespace Stores

variable (stores : Stores issuedFor)

/-- A file of Caddy's; `cat` prints nothing when it is missing. -/
def file (site : Site) (half : Half) : Bytes :=
  match stores.caddy site with
  | some pair => pair.half half
  | none => []

def renew (site : Site) (pair : IssuedPair issuedFor) : Stores issuedFor :=
  { stores with caddy := Function.update stores.caddy site (some pair) }

def setSecret (site : Site) (half : Half) (body : Text) : Stores issuedFor :=
  { stores with
    secrets := Function.update stores.secrets site
      (Function.update (stores.secrets site) half body) }

end Stores

/-- A run of the deploy workflow: the secrets as they were when its job started, and the nodes that
it has still to deploy to. -/
structure DeployRun where
  main : Half → Text
  secrets : Site → Half → Text
  left : List Node

/-- `"${NODE_IP}" == "${SERVER_1_IP}"`. -/
def Node.isSource (node : Node) : Text := (if node = .server1 then "true" else "false").toList

/-- The variables that the workflow exports on a node. -/
def DeployRun.env (run : DeployRun) (node : Node) : Env
  | "CADDY_TLS_CERT_PEM_B64" => run.main .cert
  | "CADDY_TLS_KEY_PEM_B64" => run.main .key
  | "NOFEEBOOKING_TLS_CERT_PEM_B64" => run.secrets .apex .cert
  | "NOFEEBOOKING_TLS_KEY_PEM_B64" => run.secrets .apex .key
  | "NOFEEBOOKING_WWW_TLS_CERT_PEM_B64" => run.secrets .www .cert
  | "NOFEEBOOKING_WWW_TLS_KEY_PEM_B64" => run.secrets .www .key
  | "SENTRY_ENABLED" => node.isSource
  | "NOFEEBOOKING_ENABLED" => "true".toList
  | "NOFEEBOOKING_TLS_SOURCE_HOST" => node.isSource
  | "NOFEEBOOKING_SERVER_IP" => "94.130.13.115".toList
  | "NOFEEBOOKING_BACKEND_2" => "88.99.151.102".toList
  | "NOFEEBOOKING_BACKEND_3" => "138.201.129.173".toList
  | "STORJ_ENABLED" => node.isSource
  | "STORJ_SERVER_IP" => "94.130.13.115".toList
  | _ => []

structure State (issuedFor : Bytes → Bytes → Prop) where
  stores : Stores issuedFor
  /-- What is left of the renewal job; a value when no run is in progress. -/
  job : Job (Except String Unit)
  deploy : Option DeployRun
  hosts : Node → AppDir

inductive Event where
  | caddyRenewed (site : Site)
  | jobStarted
  /-- A command of the job ended, in another way than the two below. -/
  | completed
  | fileRead (site : Site) (half : Half) (text : Text)
  /-- `gh secret set` failed, before the secret changed or after. -/
  | setFailed (half : Half) (applied : Bool)
  | deployStarted
  | rendered (node : Node)
  | deployEnded

/-- The replies to the job's commands.  The remote pipeline of a read ends with the status of `tr`,
so that a `cat` that fails prints part of the file, or nothing. -/
inductive Reply : (op : Op) → op.Reply → Event → Stores issuedFor → Stores issuedFor → Prop
  | notBefore {site stores} (date : String) : Reply (.notBefore site) date .completed stores stores
  | renew {stores} : Reply .renew () .completed stores stores
  | sleep {seconds stores} : Reply (.sleep seconds) () .completed stores stores
  | read {site half text stores} (n : Nat)
      (printed : text = Deploy.writeBase64File ((stores.file site half).take n)) :
      Reply (.extract site half) (some text) (.fileRead site half text) stores stores
  | readFailed {site half stores} : Reply (.extract site half) none .completed stores stores
  | set {site half body stores} :
      Reply (.setSecret site half body) true .completed stores (stores.setSecret site half body)
  | setFailed {site half body stores} (applied : Bool) :
      Reply (.setSecret site half body) false (.setFailed half applied) stores
        (if applied then stores.setSecret site half body else stores)
  | trigger {stores} (ok : Bool) : Reply .triggerDeploy ok .completed stores stores

variable (awk : Awk)

/-- One step.  A deploy run takes the template with it, and may fail between two nodes. -/
inductive Step : State issuedFor → Event → State issuedFor → Prop
  | caddyRenewed {s site} (pair : IssuedPair issuedFor) :
      Step s (.caddyRenewed site) { s with stores := s.stores.renew site pair }
  | jobStarted {s outcome} (idle : s.job = .ret outcome) :
      Step s .jobStarted { s with job := renewCert }
  | replied {s op next reply event stores} (waits : s.job = .call op next)
      (answered : Reply op reply event s.stores stores) :
      Step s event { s with stores, job := next reply }
  | deployStarted {s} (main : Half → Text) (idle : s.deploy = none) :
      Step s .deployStarted
        { s with deploy := some ⟨main, s.stores.secrets, [.server1, .server2, .server3]⟩ }
  | rendered {s run node left} (template : List Text) (running : s.deploy = some run)
      (hLeft : run.left = node :: left) :
      Step s (.rendered node)
        { s with
          deploy := some { run with left }
          hosts := Function.update s.hosts node (dirAfter (renderInfra awk (run.env node)
            { s.hosts node with template := some template })) }
  | deployEnded {s} : Step s .deployEnded { s with deploy := none }

/-- Two texts that decode to a certificate and the key it was issued for. -/
def Matching (issuedFor : Bytes → Bytes → Prop) (cert key : Text) : Prop :=
  ∃ pair : IssuedPair issuedFor,
    Base64.decode cert = (pair.cert, true) ∧ Base64.decode key = (pair.key, true)

/-- No run is in progress, and the secrets hold matching pairs. -/
structure Start (s : State issuedFor) : Prop where
  job : ∃ outcome, s.job = .ret outcome
  deploy : s.deploy = none
  secrets : ∀ site, Matching issuedFor (s.stores.secrets site .cert) (s.stores.secrets site .key)

/-- Caddy renews a site's certificate at no time between the two reads of its pair, a read prints
the whole file, no update that fails leaves only one half of a pair updated, and no deploy job
starts between the two updates of a pair. -/
def Careful (s : State issuedFor) : Event → Prop
  | .caddyRenewed site => ∀ next, s.job ≠ .call (.extract site .key) next
  | .fileRead site half text => ∃ pair, s.stores.caddy site = some pair ∧
      text = Deploy.writeBase64File (pair.half half)
  | .setFailed half applied => (half = .key ↔ applied = true)
  | .deployStarted => ∀ site body next, s.job ≠ .call (.setSecret site .key body) next
  | _ => True

/-- The site's files are as they were, or a certificate and the key it was issued for. -/
def Intact (issuedFor : Bytes → Bytes → Prop) (dir dir' : AppDir) (site : Site) : Prop :=
  (dir'.tls site.pair.crt = dir.tls site.pair.crt ∧
    dir'.tls site.pair.key = dir.tls site.pair.key) ∨
  ∃ pair : IssuedPair issuedFor,
    dir'.tls site.pair.crt = some pair.cert ∧ dir'.tls site.pair.key = some pair.key

end HelloCounter.Renewal
