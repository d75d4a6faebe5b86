import HelloCounter.Deploy.CertPairs
import HelloCounter.Library.Effect

/-! `.github/workflows/renew-nofeebooking-cert.yml`: the certificates on server_1 are renewed, read
over ssh, and written to the repository's secrets.  The steps run under `bash -e` without
`pipefail`, so a command that fails ends the job unless its status is ignored. -/

namespace HelloCounter.Renewal

open Effect
open Deploy (Text)

/-- `nofeebooking.com` and `www.nofeebooking.com`. -/
inductive Site where
  | apex
  | www
deriving DecidableEq

inductive Half where
  | cert
  | key
deriving DecidableEq

/-- What a step of the job does outside the runner. -/
inductive Op where
  /-- `get_not_before` for the site's certificate. -/
  | notBefore (site : Site)
  /-- `caddy renew --force` over ssh, its status ignored. -/
  | renew
  | sleep (seconds : Nat)
  /-- `ssh ... "docker exec infra-caddy-1 cat ... | base64 | tr -d '\n'"`. -/
  | extract (site : Site) (half : Half)
  /-- `gh secret set` for the site's half of its pair. -/
  | setSecret (site : Site) (half : Half) (body : Text)
  /-- `gh workflow run deploy-infra.yml`. -/
  | triggerDeploy

/-- A date or the empty string; nothing when ssh fails, and otherwise what the remote pipeline
printed; and whether a `gh` command succeeds. -/
abbrev Op.Reply : Op → Type
  | .notBefore _ => String
  | .renew => Unit
  | .sleep _ => Unit
  | .extract _ _ => Option Text
  | .setSecret _ _ _ => Bool
  | .triggerDeploy => Bool

abbrev Runner : Interface := ⟨Op, Op.Reply⟩

abbrev Job (α : Type) := Prog Runner α

def notBefore (site : Site) : Job String := Prog.perform (E := Runner) (.notBefore site)

def extract (site : Site) (half : Half) : Job (Option Text) :=
  Prog.perform (E := Runner) (.extract site half)

def setSecret (site : Site) (half : Half) (body : Text) : Job Bool :=
  Prog.perform (E := Runner) (.setSecret site half body)

/-- `[[ -n "${AFTER}" && "${AFTER}" != "${BEFORE}" ]]`. -/
def detects (before after : String) : Bool := after ≠ "" && after ≠ before

/-- The attempt loop, with the attempts that remain and the two sticky flags. -/
def attemptLoop (before wwwBefore : String) :
    (left : Nat) → (renewed wwwRenewed : Bool) → Job (Bool × Bool)
  | 0, renewed, wwwRenewed => return (renewed, wwwRenewed)
  | left + 1, renewed, wwwRenewed => do
    Prog.perform (E := Runner) .renew
    let after ← notBefore .apex
    let wwwAfter ← notBefore .www
    let renewed := renewed || detects before after
    let wwwRenewed := wwwRenewed || detects wwwBefore wwwAfter
    if renewed && wwwRenewed then return (renewed, wwwRenewed)
    else
      Prog.perform (E := Runner) (.sleep 30)
      attemptLoop before wwwBefore left renewed wwwRenewed

/-- The two encoded halves of a site's pair, or nothing when ssh fails. -/
def extractPair (site : Site) : Job (Option (Text × Text)) := do
  match ← extract site .cert with
  | none => return none
  | some cert =>
    match ← extract site .key with
    | none => return none
    | some key => return some (cert, key)

/-- Whether both secrets of a site are set. -/
def setPair (site : Site) (pair : Text × Text) : Job Bool := do
  if ← setSecret site .cert pair.1 then setSecret site .key pair.2 else return false

def triggerDeploy : Job (Except String Unit) := do
  if ← Prog.perform (E := Runner) .triggerDeploy then return .ok ()
  else return .error "gh workflow run"

/-- The step `Update GitHub secrets`, with the pair of `www` when it was renewed, and the trigger.
-/
def updateSecrets (apex : Text × Text) (www : Option (Text × Text)) : Job (Except String Unit) := do
  if ← setPair .apex apex then
    match www with
    | none => triggerDeploy
    | some www => if ← setPair .www www then triggerDeploy else return .error "gh secret set"
  else return .error "gh secret set"

def notRenewed : String :=
  "::error::nofeebooking.com cert was not renewed after 3 attempts. Leaving secrets untouched; " ++
    "investigate server_1's Caddy logs before the next scheduled run."

/-- What follows the loop. -/
def publish (renewed wwwRenewed : Bool) : Job (Except String Unit) :=
  if renewed then do
    match ← extractPair .apex with
    | none => return .error "ssh"
    | some apex =>
      if wwwRenewed then
        match ← extractPair .www with
        | none => return .error "ssh"
        | some www => updateSecrets apex (some www)
      else updateSecrets apex none
  else return .error notRenewed

def renewCert : Job (Except String Unit) := do
  let before ← notBefore .apex
  let wwwBefore ← notBefore .www
  let (renewed, wwwRenewed) ← attemptLoop before wwwBefore 3 false false
  publish renewed wwwRenewed

end HelloCounter.Renewal
