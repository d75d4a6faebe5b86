import HelloCounter.Renewal.Workflow
import Mathlib

/-! How the workflow finds out that a certificate was replaced.  Its runs are served by streams of
outcomes: of the reads of the dates, of the renew commands, and of the later commands. -/

namespace HelloCounter.Renewal

open Effect
open Deploy (Text)

/-- A certificate on server_1, by the date that `openssl` prints for it. -/
structure Cert where
  notBefore : String
  nonempty : notBefore ≠ ""
deriving DecidableEq

structure Outcomes where
  /-- Whether the read of the site's date that follows the first `n` renew commands succeeds. -/
  reads : Site → Nat → Bool
  /-- The certificate that takes the site's place with the `n`-th renew command. -/
  renewals : Nat → Site → Option Cert
  extracts : Site → Half → Option Text
  sets : Site → Half → Bool
  trigger : Bool

structure World where
  /-- How many renew commands have run. -/
  attempts : Nat
  certs : Site → Option Cert
  /-- The sites whose certificates were replaced since the attempts began. -/
  replaced : Site → Bool
  secrets : Site → Half → Text
  /-- The sites of which a secret was rewritten. -/
  writes : List Site

def dateOf : Option Cert → String
  | some cert => cert.notBefore
  | none => ""

namespace World

def start (certs : Site → Option Cert) (secrets : Site → Half → Text) : World :=
  ⟨0, certs, fun _ => false, secrets, []⟩

def renew (world : World) (renewal : Site → Option Cert) : World :=
  { world with
    attempts := world.attempts + 1
    certs := fun site => (renewal site).or (world.certs site)
    replaced := fun site => world.replaced site || (renewal site).isSome }

def write (world : World) (site : Site) (half : Half) (body : Text) : World :=
  { world with
    secrets := Function.update world.secrets site (Function.update (world.secrets site) half body)
    writes := world.writes ++ [site] }

end World

namespace Outcomes

def answer (outcomes : Outcomes) : (op : Op) → World → op.Reply × World
  | .notBefore site, world =>
    (if outcomes.reads site world.attempts then dateOf (world.certs site) else "", world)
  | .renew, world => ((), world.renew (outcomes.renewals world.attempts))
  | .sleep _, world => ((), world)
  | .extract site half, world => (outcomes.extracts site half, world)
  | .setSecret site half body, world =>
    if outcomes.sets site half then (true, world.write site half body) else (false, world)
  | .triggerDeploy, world => (outcomes.trigger, world)

variable (outcomes : Outcomes) (certs : Site → Option Cert)

/-- The certificates after the first `n` renew commands. -/
def certsAfter : (n : Nat) → Site → Option Cert
  | 0 => certs
  | n + 1 => fun site => (outcomes.renewals n site).or (certsAfter n site)

/-- What the read of the date after the first `n` renew commands prints. -/
def date (site : Site) (n : Nat) : String :=
  if outcomes.reads site n then dateOf (outcomes.certsAfter certs n site) else ""

/-- A read after one of the first `n` renew commands prints a date other than the first one. -/
def flag (site : Site) (n : Nat) : Bool :=
  (List.range n).any fun k =>
    detects (outcomes.date certs site 0) (outcomes.date certs site (k + 1))

/-- The loop comes to the attempt `n`: not both sites were flagged before it. -/
def Made (n : Nat) : Prop :=
  n < 3 ∧ ¬(outcomes.flag certs .apex n = true ∧ outcomes.flag certs .www n = true)

/-- Both halves of the site's pair are read. -/
def extracted (site : Site) : Bool :=
  (outcomes.extracts site .cert).isSome && (outcomes.extracts site .key).isSome

/-- Every command up to the first `gh secret set` for the site succeeds, with these flags. -/
def written (renewed wwwRenewed : Bool) : Site → Bool
  | .apex => renewed && outcomes.extracted .apex && (!wwwRenewed || outcomes.extracted .www) &&
      outcomes.sets .apex .cert
  | .www => renewed && wwwRenewed && outcomes.extracted .apex && outcomes.extracted .www &&
      outcomes.sets .apex .cert && outcomes.sets .apex .key && outcomes.sets .www .cert

/-- Every command between the attempts and the first `gh secret set` for the site succeeds; for
`www` a date other than the first one was also read for `nofeebooking.com`. -/
def published : Site → Bool
  | .apex => outcomes.extracted .apex && (!outcomes.flag certs .www 3 || outcomes.extracted .www) &&
      outcomes.sets .apex .cert
  | .www => outcomes.flag certs .apex 3 && outcomes.extracted .apex && outcomes.extracted .www &&
      outcomes.sets .apex .cert && outcomes.sets .apex .key && outcomes.sets .www .cert

/-- The read before the attempts failed although a certificate was there, the attempts that were
made left it in place, a read after one of them succeeded, and no later command stopped the job
before the site's secrets. -/
structure FalseAlarm (site : Site) : Prop where
  present : certs site ≠ none
  blind : outcomes.reads site 0 = false
  kept : ∀ n, outcomes.Made certs n → outcomes.renewals n site = none
  seen : ∃ n, outcomes.Made certs n ∧ outcomes.reads site (n + 1) = true
  published : outcomes.published certs site = true

end Outcomes

/-! ### The attempt loop -/

section

variable (outcomes : Outcomes) (certs : Site → Option Cert) (secrets : Site → Half → Text)

/-- The world after the first `n` renew commands. -/
def worldAfter (n : Nat) : World where
  attempts := n
  certs := outcomes.certsAfter certs n
  replaced := fun site => (List.range n).any fun k => (outcomes.renewals k site).isSome
  secrets := secrets
  writes := []

/-- How many renew commands have run when the loop ends. -/
def stop : (left n : Nat) → Nat
  | 0, n => n
  | left + 1, n =>
    if outcomes.flag certs .apex (n + 1) && outcomes.flag certs .www (n + 1) then n + 1
    else stop left (n + 1)

theorem flag_succ (site : Site) (n : Nat) : outcomes.flag certs site (n + 1) =
    (outcomes.flag certs site n ||
      detects (outcomes.date certs site 0) (outcomes.date certs site (n + 1))) := by
  simp [Outcomes.flag, List.range_succ]

theorem worldAfter_succ (n : Nat) :
    (worldAfter outcomes certs secrets n).renew (outcomes.renewals n) =
      worldAfter outcomes certs secrets (n + 1) := by
  simp [worldAfter, World.renew, List.range_succ, Outcomes.certsAfter]

theorem attemptLoop_run (left n : Nat) :
    (attemptLoop (outcomes.date certs .apex 0) (outcomes.date certs .www 0) left
        (outcomes.flag certs .apex n) (outcomes.flag certs .www n)).run outcomes.answer
        (worldAfter outcomes certs secrets n) =
      ((outcomes.flag certs .apex (stop outcomes certs left n),
        outcomes.flag certs .www (stop outcomes certs left n)),
        worldAfter outcomes certs secrets (stop outcomes certs left n)) := by
  induction left generalizing n with
  | zero => rfl
  | succ left ih =>
    have hRound : (attemptLoop (outcomes.date certs .apex 0) (outcomes.date certs .www 0) (left + 1)
        (outcomes.flag certs .apex n) (outcomes.flag certs .www n)).run outcomes.answer
          (worldAfter outcomes certs secrets n) =
        (if outcomes.flag certs .apex (n + 1) && outcomes.flag certs .www (n + 1) then
          Prog.ret (outcomes.flag certs .apex (n + 1), outcomes.flag certs .www (n + 1))
        else Prog.call (E := Runner) (.sleep 30) fun _ =>
          attemptLoop (outcomes.date certs .apex 0) (outcomes.date certs .www 0) left
            (outcomes.flag certs .apex (n + 1)) (outcomes.flag certs .www (n + 1))).run
          outcomes.answer (worldAfter outcomes certs secrets (n + 1)) := by
      rw [flag_succ, flag_succ, ← worldAfter_succ]
      rfl
    rw [hRound, stop]
    split
    · rfl
    · exact ih (n + 1)

theorem stop_spec (left n : Nat) (start : ¬(outcomes.flag certs .apex n = true ∧
    outcomes.flag certs .www n = true)) :
    n ≤ stop outcomes certs left n ∧ stop outcomes certs left n ≤ n + left ∧
      (∀ k < stop outcomes certs left n, n ≤ k →
        ¬(outcomes.flag certs .apex k = true ∧ outcomes.flag certs .www k = true)) ∧
      (stop outcomes certs left n < n + left →
        outcomes.flag certs .apex (stop outcomes certs left n) = true ∧
          outcomes.flag certs .www (stop outcomes certs left n) = true) := by
  induction left generalizing n with
  | zero =>
    rw [stop]
    exact ⟨le_rfl, le_rfl, fun k hk hn => absurd hk (by omega), fun h => absurd h (by omega)⟩
  | succ left ih =>
    rw [stop]
    split
    · rename_i hBoth
      refine ⟨by omega, by omega, ?_, fun _ => by simpa using hBoth⟩
      intro k hk hn
      obtain rfl : k = n := by omega
      exact start
    · rename_i hNot
      obtain ⟨hLow, hHigh, hBefore, hEnd⟩ := ih (n + 1) (by simpa using hNot)
      refine ⟨by omega, by omega, ?_, fun h => hEnd (by omega)⟩
      intro k hk hn
      rcases Nat.eq_or_lt_of_le hn with rfl | hLt
      · exact start
      · exact hBefore k hk hLt

theorem flag_mono {site : Site} {n m : Nat} (h : n ≤ m)
    (hFlag : outcomes.flag certs site n = true) : outcomes.flag certs site m = true := by
  obtain ⟨k, hk, hDetects⟩ := List.any_eq_true.mp hFlag
  rw [List.mem_range] at hk
  exact List.any_eq_true.mpr ⟨k, List.mem_range.mpr (by omega), hDetects⟩

/-- The attempts that are made are those before the loop's end. -/
theorem made_iff (n : Nat) : outcomes.Made certs n ↔ n < stop outcomes certs 3 0 := by
  obtain ⟨-, hHigh, hBefore, hEnd⟩ := stop_spec outcomes certs 3 0 (by simp [Outcomes.flag])
  constructor
  · rintro ⟨hn, hNot⟩
    by_contra hStop
    obtain ⟨hApex, hWww⟩ := hEnd (by omega)
    exact hNot ⟨flag_mono outcomes certs (by omega) hApex, flag_mono outcomes certs (by omega) hWww⟩
  · intro hn
    exact ⟨by omega, hBefore n hn (Nat.zero_le n)⟩

/-- A flag at the loop's end is what it would be after all attempts. -/
theorem flag_stop (site : Site) : outcomes.flag certs site (stop outcomes certs 3 0) =
    outcomes.flag certs site 3 := by
  obtain ⟨-, hHigh, -, hEnd⟩ := stop_spec outcomes certs 3 0 (by simp [Outcomes.flag])
  rcases Nat.lt_or_ge (stop outcomes certs 3 0) 3 with hLt | hGe
  · obtain ⟨hApex, hWww⟩ := hEnd (by omega)
    have hSite : outcomes.flag certs site (stop outcomes certs 3 0) = true := by
      cases site with
      | apex => exact hApex
      | www => exact hWww
    rw [hSite, flag_mono outcomes certs (by omega) hSite]
  · rw [show stop outcomes certs 3 0 = 3 by omega]

end

/-! ### What follows the loop -/

/-- `world'` is `world` after secrets of the sites `sites` were written. -/
structure Wrote (sites : Site → Prop) (world world' : World) : Prop where
  replaced : world'.replaced = world.replaced
  writes : ∀ site, site ∈ world'.writes ↔ site ∈ world.writes ∨ sites site
  secrets : ∀ site, ¬sites site → world'.secrets site = world.secrets site

namespace Wrote

variable {sites sites' : Site → Prop} {world world' world'' : World}

theorem nothing (world : World) : Wrote (fun _ => False) world world :=
  ⟨rfl, fun _ => by simp, fun _ _ => rfl⟩

theorem write (world : World) (site : Site) (half : Half) (body : Text) :
    Wrote (· = site) world (world.write site half body) :=
  ⟨rfl, fun other => by simp [World.write], fun other h => Function.update_of_ne h _ _⟩

theorem trans (first : Wrote sites world world') (second : Wrote sites' world' world'') :
    Wrote (fun site => sites site ∨ sites' site) world world'' := by
  constructor
  · rw [second.replaced, first.replaced]
  · intro site
    rw [second.writes, first.writes, or_assoc]
  · intro site h
    rw [not_or] at h
    rw [second.secrets site h.2, first.secrets site h.1]

theorem congr (wrote : Wrote sites world world') (h : ∀ site, sites site ↔ sites' site) :
    Wrote sites' world world' := by
  rwa [← funext fun site => propext (h site)]

end Wrote

section

variable (outcomes : Outcomes) (world : World)

theorem setSecret_run (site : Site) (half : Half) (body : Text) :
    (setSecret site half body).run outcomes.answer world =
      if outcomes.sets site half then (true, world.write site half body) else (false, world) := rfl

theorem setPair_run (site : Site) (pair : Text × Text) :
    (setPair site pair).run outcomes.answer world =
      if outcomes.sets site .cert then
        if outcomes.sets site .key then
          (true, (world.write site .cert pair.1).write site .key pair.2)
        else (false, world.write site .cert pair.1)
      else (false, world) := by
  rw [setPair, Prog.run_bind, setSecret_run]
  cases outcomes.sets site .cert with
  | false => rfl
  | true =>
    rw [if_pos rfl]
    show (setSecret site .key pair.2).run outcomes.answer (world.write site .cert pair.1) = _
    rw [setSecret_run]
    rfl

/-- What `setPair` returns, and what it writes. -/
theorem setPair_wrote (site : Site) (pair : Text × Text) :
    ∃ world', (setPair site pair).run outcomes.answer world =
        (outcomes.sets site .cert && outcomes.sets site .key, world') ∧
      Wrote (fun other => other = site ∧ outcomes.sets site .cert = true) world world' := by
  have hCert := Wrote.write world site .cert pair.1
  rw [setPair_run]
  cases outcomes.sets site .cert with
  | false => exact ⟨world, rfl, (Wrote.nothing world).congr fun other => by simp⟩
  | true =>
    cases outcomes.sets site .key with
    | false => exact ⟨_, rfl, hCert.congr fun other => by simp⟩
    | true =>
      have hKey := Wrote.write (world.write site .cert pair.1) site .key pair.2
      exact ⟨_, rfl, (hCert.trans hKey).congr fun other => by simp⟩

theorem triggerDeploy_run : (triggerDeploy.run outcomes.answer world).2 = world := by
  unfold triggerDeploy
  rw [Prog.run_bind, Prog.run_perform]
  show (Prog.run _ (if outcomes.trigger then _ else _) world).2 = world
  cases outcomes.trigger <;> rfl

/-- What the step `Update GitHub secrets` writes. -/
theorem updateSecrets_wrote (apex : Text × Text) (www : Option (Text × Text)) :
    Wrote (fun site => match site with
        | .apex => outcomes.sets .apex .cert = true
        | .www => www.isSome = true ∧ outcomes.sets .apex .cert = true ∧
            outcomes.sets .apex .key = true ∧ outcomes.sets .www .cert = true) world
      ((updateSecrets apex www).run outcomes.answer world).2 := by
  obtain ⟨world', hApex, wroteApex⟩ := setPair_wrote outcomes world .apex apex
  unfold updateSecrets
  rw [Prog.run_bind, hApex]
  cases hCert : outcomes.sets .apex .cert with
  | false =>
    apply wroteApex.congr
    rintro (_ | _) <;> simp [hCert]
  | true =>
    cases hKey : outcomes.sets .apex .key with
    | false =>
      apply wroteApex.congr
      rintro (_ | _) <;> simp [hCert]
    | true =>
      cases www with
      | none =>
        show Wrote _ world (triggerDeploy.run outcomes.answer world').2
        rw [triggerDeploy_run]
        apply wroteApex.congr
        rintro (_ | _) <;> simp [hCert]
      | some pair =>
        obtain ⟨world'', hWww, wroteWww⟩ := setPair_wrote outcomes world' .www pair
        have hEnd : (((setPair .www pair >>= fun ok => if ok = true then triggerDeploy
            else Prog.ret (.error "gh secret set")).run outcomes.answer world').2) = world'' := by
          rw [Prog.run_bind, hWww]
          cases outcomes.sets .www .cert && outcomes.sets .www .key with
          | false => rfl
          | true => exact triggerDeploy_run outcomes world''
        show Wrote _ world (Prog.run _ (setPair .www pair >>= fun ok => if ok = true then
          triggerDeploy else Prog.ret (.error "gh secret set")) world').2
        rw [hEnd]
        apply (wroteApex.trans wroteWww).congr
        rintro (_ | _) <;> simp [hCert]

theorem extract_run (site : Site) (half : Half) :
    (extract site half).run outcomes.answer world = (outcomes.extracts site half, world) := rfl

theorem extractPair_run (site : Site) :
    ∃ pair, (extractPair site).run outcomes.answer world = (pair, world) ∧
      pair.isSome = outcomes.extracted site := by
  unfold Outcomes.extracted
  rw [extractPair, Prog.run_bind, extract_run]
  cases outcomes.extracts site .cert with
  | none => exact ⟨none, rfl, rfl⟩
  | some cert =>
    show ∃ pair, Prog.run outcomes.answer (extract site .key >>= _) world = (pair, world) ∧ _
    rw [Prog.run_bind, extract_run]
    cases outcomes.extracts site .key with
    | none => exact ⟨none, rfl, rfl⟩
    | some key => exact ⟨some (cert, key), rfl, rfl⟩

/-- What is written after the loop. -/
theorem publish_wrote (renewed wwwRenewed : Bool) :
    Wrote (fun site => outcomes.written renewed wwwRenewed site = true) world
      ((publish renewed wwwRenewed).run outcomes.answer world).2 := by
  have hNothing : (∀ site, outcomes.written renewed wwwRenewed site = false) →
      Wrote (fun site => outcomes.written renewed wwwRenewed site = true) world world :=
    fun h => (Wrote.nothing world).congr fun site => by simp [h site]
  cases renewed with
  | false => exact hNothing fun site => by cases site <;> rfl
  | true =>
    obtain ⟨apex, hApex, hApexSome⟩ := extractPair_run outcomes world .apex
    show Wrote _ world ((extractPair .apex >>= _).run outcomes.answer world).2
    rw [Prog.run_bind, hApex]
    cases apex with
    | none =>
      exact hNothing fun site => by cases site <;> simp [Outcomes.written, ← hApexSome]
    | some apex =>
      cases wwwRenewed with
      | false =>
        apply (updateSecrets_wrote outcomes world apex none).congr
        rintro (_ | _) <;> simp [Outcomes.written, ← hApexSome]
      | true =>
        obtain ⟨www, hWww, hWwwSome⟩ := extractPair_run outcomes world .www
        show Wrote _ world ((extractPair .www >>= _).run outcomes.answer world).2
        rw [Prog.run_bind, hWww]
        cases www with
        | none =>
          exact hNothing fun site => by cases site <;> simp [Outcomes.written, ← hWwwSome]
        | some www =>
          apply (updateSecrets_wrote outcomes world apex (some www)).congr
          rintro (_ | _) <;> simp [Outcomes.written, ← hApexSome, ← hWwwSome, and_assoc]

end

/-! ### The whole workflow -/

section

variable (outcomes : Outcomes) (certs : Site → Option Cert) (secrets : Site → Half → Text)

/-- The world after a run of the workflow. -/
def finalWorld : World := (renewCert.run outcomes.answer (World.start certs secrets)).2

theorem finalWorld_wrote :
    Wrote (fun site => outcomes.written (outcomes.flag certs .apex 3) (outcomes.flag certs .www 3)
        site = true)
      (worldAfter outcomes certs secrets (stop outcomes certs 3 0))
      (finalWorld outcomes certs secrets) := by
  have hLoop := attemptLoop_run outcomes certs secrets 3 0
  rw [flag_stop, flag_stop] at hLoop
  have hFinal : finalWorld outcomes certs secrets =
      ((publish (outcomes.flag certs .apex 3) (outcomes.flag certs .www 3)).run outcomes.answer
        (worldAfter outcomes certs secrets (stop outcomes certs 3 0))).2 := by
    show ((attemptLoop (outcomes.date certs .apex 0) (outcomes.date certs .www 0) 3
      (outcomes.flag certs .apex 0) (outcomes.flag certs .www 0) >>= fun flags =>
        publish flags.1 flags.2).run outcomes.answer (worldAfter outcomes certs secrets 0)).2 = _
    rw [Prog.run_bind, hLoop]
  rw [hFinal]
  exact publish_wrote outcomes _ _ _

/-- Secrets of a site are rewritten only if its certificate was replaced, and otherwise left as they
were. -/
def Sound : Prop :=
  ∀ site, (finalWorld outcomes certs secrets).replaced site = false →
    site ∉ (finalWorld outcomes certs secrets).writes ∧
      (finalWorld outcomes certs secrets).secrets site = secrets site

theorem finalWorld_replaced (site : Site) :
    (finalWorld outcomes certs secrets).replaced site = false ↔
      ∀ n, outcomes.Made certs n → outcomes.renewals n site = none := by
  rw [(finalWorld_wrote outcomes certs secrets).replaced]
  simp only [worldAfter, List.any_eq_false, List.mem_range, made_iff]
  exact forall_congr' fun n => forall_congr' fun _ => by simp

theorem certsAfter_of_kept {site : Site} {m : Nat} (h : ∀ n < m, outcomes.renewals n site = none) :
    outcomes.certsAfter certs m site = certs site := by
  induction m with
  | zero => rfl
  | succ m ih =>
    show (outcomes.renewals m site).or (outcomes.certsAfter certs m site) = certs site
    rw [h m (by omega), Option.none_or]
    exact ih fun n hn => h n (by omega)

theorem written_eq (site : Site) :
    outcomes.written (outcomes.flag certs .apex 3) (outcomes.flag certs .www 3) site =
      (outcomes.flag certs site 3 && outcomes.published certs site) := by
  cases site with
  | apex => simp only [Outcomes.written, Outcomes.published, Bool.and_assoc]
  | www =>
    simp only [Outcomes.written, Outcomes.published]
    cases outcomes.flag certs .www 3 <;> simp

/-- Where the certificate is kept, a read after an attempt prints its date, if it prints
anything. -/
theorem date_of_kept {site : Site}
    (kept : ∀ n, outcomes.Made certs n → outcomes.renewals n site = none) {n : Nat}
    (made : outcomes.Made certs n) : outcomes.date certs site (n + 1) =
      if outcomes.reads site (n + 1) then dateOf (certs site) else "" := by
  have hn := (made_iff outcomes certs n).mp made
  have hCerts : outcomes.certsAfter certs (n + 1) site = certs site :=
    certsAfter_of_kept outcomes certs fun k hk =>
      kept k ((made_iff outcomes certs k).mpr (by omega))
  rw [Outcomes.date, hCerts]

/-- A certificate that is kept raises the site's flag exactly when the first read failed and a later
one succeeded. -/
theorem flag_of_kept {site : Site}
    (kept : ∀ n, outcomes.Made certs n → outcomes.renewals n site = none) :
    outcomes.flag certs site 3 = true ↔ certs site ≠ none ∧ outcomes.reads site 0 = false ∧
      ∃ n, outcomes.Made certs n ∧ outcomes.reads site (n + 1) = true := by
  constructor
  · intro hFlag
    rw [← flag_stop] at hFlag
    obtain ⟨n, hn, hDetects⟩ := List.any_eq_true.mp hFlag
    have made := (made_iff outcomes certs n).mpr (List.mem_range.mp hn)
    rw [date_of_kept outcomes certs kept made] at hDetects
    have hReads : outcomes.reads site (n + 1) = true := by
      by_contra h
      simp [detects, h] at hDetects
    simp only [detects, hReads, if_true, Bool.and_eq_true, decide_eq_true_eq] at hDetects
    obtain ⟨hAfter, hOther⟩ := hDetects
    refine ⟨fun hNone => hAfter (by rw [hNone]; rfl), ?_, n, made, hReads⟩
    by_contra h
    have hFirst : outcomes.reads site 0 = true := by simpa using h
    exact hOther (if_pos hFirst).symm
  · rintro ⟨hPresent, hBlind, n, made, hReads⟩
    obtain ⟨cert, hCert⟩ := Option.ne_none_iff_exists'.mp hPresent
    have hDate : dateOf (certs site) ≠ "" := hCert ▸ cert.nonempty
    have hFirst : outcomes.date certs site 0 = "" := if_neg (by simp [hBlind])
    have hAfter : outcomes.date certs site (n + 1) = dateOf (certs site) := by
      rw [date_of_kept outcomes certs kept made, if_pos hReads]
    refine List.any_eq_true.mpr ⟨n, List.mem_range.mpr made.1, ?_⟩
    rw [hFirst, hAfter]
    simp [detects, hDate]

/-- The workflow is sound if and only if no site has a false alarm. -/
theorem sound_iff : Sound outcomes certs secrets ↔ ∀ site, ¬outcomes.FalseAlarm certs site := by
  have wrote := finalWorld_wrote outcomes certs secrets
  constructor
  · intro sound site alarm
    obtain ⟨hNot, -⟩ :=
      sound site ((finalWorld_replaced outcomes certs secrets site).mpr alarm.kept)
    have hFlag := (flag_of_kept outcomes certs alarm.kept).mpr
      ⟨alarm.present, alarm.blind, alarm.seen⟩
    refine hNot ((wrote.writes site).mpr (.inr ?_))
    rw [written_eq, hFlag, alarm.published]
    rfl
  · intro quiet site hReplaced
    have hKept := (finalWorld_replaced outcomes certs secrets site).mp hReplaced
    have hWritten : ¬outcomes.written (outcomes.flag certs .apex 3) (outcomes.flag certs .www 3)
        site = true := by
      intro hWritten
      rw [written_eq, Bool.and_eq_true] at hWritten
      obtain ⟨hPresent, hBlind, hSeen⟩ := (flag_of_kept outcomes certs hKept).mp hWritten.1
      exact quiet site ⟨hPresent, hBlind, hKept, hSeen, hWritten.2⟩
    refine ⟨?_, wrote.secrets site hWritten⟩
    intro hMem
    rcases (wrote.writes site).mp hMem with h | h
    · cases h
    · exact hWritten h

end

/-! ### A read that fails before the attempts -/

def januaryCert : Cert := ⟨"Jan 15 03:00:00 2025 GMT", by decide⟩

/-- The first read of the apex certificate's date fails, no renew command replaces a certificate,
and everything else succeeds. -/
def failedRead : Outcomes where
  reads site n := site ≠ .apex || n ≠ 0
  renewals _ _ := none
  extracts _ _ := some ['A', 'A', '=', '=']
  sets _ _ := true
  trigger := true

theorem failedRead_unsound : ¬∀ (outcomes : Outcomes) (certs : Site → Option Cert)
    (secrets : Site → Half → Text), Sound outcomes certs secrets := by
  intro h
  obtain ⟨hWrites, -⟩ := h failedRead (fun _ => some januaryCert) (fun _ _ => []) .apex (by decide)
  exact absurd hWrites (by decide)

end HelloCounter.Renewal
