import HelloCounter.Deploy.Caddy
import HelloCounter.Deploy.InfraHistory
import HelloCounter.Deploy.Markers
import HelloCounter.Deploy.Template

/-! The requests that reach the three hosts, whose names DNS gives out in turn.  With the template
of the repository every host answers for the same domains, and a request is proxied to the first
server at most once, where it stays. -/

namespace HelloCounter.Deploy

open BlockText (Word Body)

/-! ### The sites of each host -/

/-- The hosts of a site block, and the upstreams of its `reverse_proxy` directives. -/
structure Site where
  hosts : List Text
  upstreams : List Text
deriving DecidableEq

/-- The directives of the template, with the matcher of `redir`. -/
def directives : List Text :=
  ["tls", "issuer", "disable_tlsalpn_challenge", "encode", "handle", "@www", "redir",
    "reverse_proxy"].map String.toList

def reverseProxy : Text := "reverse_proxy".toList

def siteOf (block : List Word × Body) : Site where
  hosts := (siteAddresses block.1).map addressHost
  upstreams :=
    (block.2.entries.filter fun entry => entry.1.head? = some reverseProxy).filterMap (·.1[1]?)

/-- One of the directives, and a `reverse_proxy` only of one upstream. -/
def knownEntry (entry : List Word × Bool) : Bool :=
  directives.any (entry.1.head? = some ·) &&
    (entry.1.head? != some reverseProxy || (entry.1.length == 2 && !entry.2))

/-- The sites of a file, and whether it is plain with known directives at any depth. -/
def readSites (lines : List Text) : Option (Bool × List Site) :=
  (BlockText.read (BlockText.commandLines lines)).map fun body =>
    (lines.all (fun line => !line.contains '\n') && plainFile body &&
      body.blocks.all fun block => block.2.entries.all knownEntry, body.blocks.map siteOf)

def site (hosts upstreams : List String) : Site :=
  ⟨hosts.map String.toList, upstreams.map String.toList⟩

/-- The sites of the first server, and of the other two. -/
def hostSites (first : Bool) : List Site :=
  [site ["hello-world.prakash.yral.com"] ["localhost:3001"],
    site ["estatedao.prakash.yral.com"] ["localhost:3002"],
    site ["moderation.prakash.yral.com"] ["localhost:3006"]] ++
  (if first then
    [site ["storj-interface.yral.com"] ["localhost:3004"],
      site ["storage-interface.prakash.yral.com"] ["localhost:3005"],
      site ["nofeebooking.com", "www.nofeebooking.com"] ["localhost:3003"]]
  else
    [site ["storj-interface.yral.com"] ["94.130.13.115:3004"],
      site ["storage-interface.prakash.yral.com"] ["94.130.13.115:3005"],
      site ["nofeebooking.com", "www.nofeebooking.com"] ["94.130.13.115:80"],
      site ["nofeebooking.com"] ["localhost:3003"], site ["www.nofeebooking.com"] []]) ++
  [site ["nofeebooking.prakash.yral.com"] [],
    site ["sentry.prakash.yral.com"] [if first then "localhost:9000" else "94.130.13.115:9000"]]

/-- The flags of a host's role. -/
def flagEnv (first : Bool) : Env
  | "SENTRY_ENABLED" | "NOFEEBOOKING_TLS_SOURCE_HOST" | "STORJ_ENABLED" => boolText first
  | "NOFEEBOOKING_ENABLED" => boolText true
  | _ => []

/-- The values of the placeholders on every host, with the directives `tls`. -/
def roleSubs (tls nofeebooking www : Text) : Gsub.Subs Char :=
  [("__TLS_DIRECTIVE__".toList, tls), ("__NOFEEBOOKING_TLS_DIRECTIVE__".toList, nofeebooking),
    ("__NOFEEBOOKING_WWW_TLS_DIRECTIVE__".toList, www),
    ("__SENTRY_SERVER_IP__".toList, "94.130.13.115".toList),
    ("__NOFEEBOOKING_SERVER_IP__".toList, server1Ip),
    ("__NOFEEBOOKING_BACKEND_2__".toList, server2Ip),
    ("__NOFEEBOOKING_BACKEND_3__".toList, server3Ip), ("__STORJ_SERVER_IP__".toList, server1Ip)]

/-- A line without two underscores in a row is kept. -/
def image (subs : Gsub.Subs Char) (line : Text) : Text :=
  if ['_', '_'] <:+: line then Gsub.gsubAll subs line else line

/-- The lines of the template for the first server's role, and for that of the other two. -/
def roleLines (first : Bool) : List Text :=
  siteLines ++ (if first then storjBlockLines else storjProxyLines) ++ [[]] ++
    (if first then nofeebookingBlockLines else nofeebookingStaticLines) ++ redirectLines ++
    (if first then sentryBlockLines else sentryProxyLines)

theorem selected_roleLines (first : Bool) :
    infraParts.flatMap (Part.selected (flagEnv first)) = roleLines first := by
  have hOutside : ∀ line plain, Part.selected (flagEnv first) (.outside line plain) = [line] :=
    fun _ _ => rfl
  simp only [infraParts, List.flatMap_append, flatMap_outsideParts hOutside, List.flatMap_cons,
    List.flatMap_nil, sectionPart, Part.selected]
  cases first <;> simp [roleLines, Section.enabled, flagEnv, boolText, isTrue]

theorem sites_read (first : Bool) :
    ∀ tls ∈ [[], mainPair.directive], ∀ nofeebooking ∈ [[], nofeebookingPair.directive],
      ∀ www ∈ [[], wwwPair.directive],
        readSites ((roleLines first).map (image (roleSubs tls nofeebooking www))) =
          some (true, hostSites first) := by
  unfold roleSubs server1Ip server2Ip server3Ip
  cases first with
  | true =>
    simp only [roleLines, siteLines, storjBlockLines, nofeebookingBlockLines, redirectLines,
      sentryBlockLines, hostSites, site, if_true, List.map_cons, List.map_nil, List.cons_append,
      List.nil_append]
    repeat rw [String.toList_ofList]
    decide +kernel
  | false =>
    simp only [roleLines, siteLines, storjProxyLines, nofeebookingStaticLines, redirectLines,
      sentryProxyLines, hostSites, site, if_false, Bool.false_eq_true, List.map_cons,
      List.map_nil, List.cons_append, List.nil_append]
    repeat rw [String.toList_ofList]
    decide +kernel

/-! ### The rendered lines of a host -/

variable {awk : Awk} {secrets : Env} {nodeIp : Text}

theorem enabled_flagEnv (secrets : Env) (nodeIp : Text) (s : Section) :
    s.enabled (roleEnv secrets nodeIp) = s.enabled (flagEnv (nodeIp = server1Ip)) := by
  obtain ⟨hSentry, hEnabled, hSource, hStorj⟩ := roleEnv_flags secrets nodeIp
  cases s <;> simp only [Section.enabled, hSentry, hEnabled, hSource, hStorj, flagEnv]

theorem selected_flagEnv (secrets : Env) (nodeIp : Text) (parts : List Part) :
    parts.flatMap (Part.selected (roleEnv secrets nodeIp)) =
      parts.flatMap (Part.selected (flagEnv (nodeIp = server1Ip))) := by
  refine List.flatMap_congr fun part _ => ?_
  cases part with
  | outside line plain => rfl
  | enclosed s first body last =>
    rw [Part.selected, Part.selected, enabled_flagEnv]

theorem roleEnv_plainFlags (secrets : Env) (nodeIp : Text) :
    PlainFlags (roleEnv secrets nodeIp) := by
  have hFlag : ∀ b : Bool, '\\' ∉ boolText b ∧ '\n' ∉ boolText b := by decide
  simp only [PlainFlags, List.forall_mem_cons, roleEnv_flags]
  exact ⟨hFlag _, hFlag _, hFlag _, hFlag _, by simp⟩

theorem roleEnv_addresses (secrets : Env) (nodeIp : Text) : Addresses (roleEnv secrets nodeIp) := by
  simp only [Addresses, List.forall_mem_cons, roleEnv_servers]
  exact ⟨by decide, by decide, by decide, by decide, by decide, by simp⟩

/-- The substitutions of the host's role, whatever the awk. -/
theorem role_subs (awk : Awk) (secrets : Env) (nodeIp : Text) {values : CertPair → Text}
    (hValues : Directives values) :
    (Vars.ofEnv awk (roleEnv secrets nodeIp) (values mainPair) (values nofeebookingPair)
        (values wwwPair)).subs =
      roleSubs (values mainPair) (values nofeebookingPair) (values wwwPair) := by
  have hDirective : ∀ pair ∈ pairs, awk.assign (values pair) = values pair := by
    intro pair hPair
    rcases hValues pair hPair with h | h <;> rw [h]
    · exact Inert.assign (by decide) awk
    · exact (directive_inert hPair).assign awk
  have hServer : ∀ address, IsAddress address → awk.assign address = address :=
    fun address h => h.inert.assign awk
  obtain ⟨hSentry, hServer1, hServer2, hServer3, hStorj⟩ := roleEnv_servers secrets nodeIp
  have hMain := hDirective mainPair (by decide)
  have hNofeebooking := hDirective nofeebookingPair (by decide)
  have hWww := hDirective wwwPair (by decide)
  have hDefault : (roleEnv secrets nodeIp).getD "SENTRY_SERVER_IP" "94.130.13.115" =
      "94.130.13.115".toList := if_pos hSentry
  have hGetD : ∀ {name default value}, roleEnv secrets nodeIp name = value → value ≠ [] →
      (roleEnv secrets nodeIp).getD name default = value := by
    rintro name default value rfl hValue
    exact if_neg hValue
  simp only [Vars.subs, Vars.substitutions, Vars.ofEnv, List.map_cons, List.map_nil, hMain,
    hNofeebooking, hWww, hDefault, hGetD hServer1 (by decide), hGetD hServer2 (by decide),
    hGetD hServer3 (by decide), hGetD hStorj (by decide),
    hServer "94.130.13.115".toList (by decide), hServer server1Ip (by decide),
    hServer server2Ip (by decide), hServer server3Ip (by decide), roleSubs]

/-- A line of the host's Caddyfile. -/
theorem role_substitute (awk : Awk) (secrets : Env) (nodeIp line : Text)
    {values : CertPair → Text} (hValues : Directives values) :
    substitute awk (Vars.ofEnv awk (roleEnv secrets nodeIp) (values mainPair)
        (values nofeebookingPair) (values wwwPair)) line =
      image (roleSubs (values mainPair) (values nofeebookingPair) (values wwwPair)) line := by
  have inert : ∀ sub ∈ (Vars.ofEnv awk (roleEnv secrets nodeIp) (values mainPair)
      (values nofeebookingPair) (values wwwPair)).substitutions, Inert sub.2 :=
    substitutions_inert (roleEnv_addresses secrets nodeIp).inert (hValues _ (by decide))
      (hValues _ (by decide)) (hValues _ (by decide))
  rw [substitute, foldl_gsub awk inert line]
  show Gsub.gsubAll (Vars.subs _) line = _
  rw [role_subs awk secrets nodeIp hValues, image]
  split
  · rfl
  · next hLine =>
    refine Gsub.gsubAll_absent fun sub hSub hInfix => hLine ?_
    rw [← role_subs awk secrets nodeIp hValues] at hSub
    obtain ⟨placeholder, hPlaceholder, hEq⟩ := subs_pattern hSub
    exact (hEq ▸ placeholders_marked placeholder hPlaceholder).trans hInfix

theorem directives_env (env : Env) : Directives (directive env) := fun _ _ => directive_cases env _

theorem served_lines {release : Release} {dir : AppDir} (served : Served awk release nodeIp dir)
    (template : release.template = infraTemplate) :
    dir.caddyfile = some ((infraParts.flatMap (Part.selected (roleEnv release.secrets nodeIp))).map
      (substitute awk (runVars awk (roleEnv release.secrets nodeIp)))) := by
  have flags : Flags (runVars awk (roleEnv release.secrets nodeIp))
      (roleEnv release.secrets nodeIp) :=
    flags_ofEnv awk (roleEnv_plainFlags release.secrets nodeIp) _ _ _
  rw [served.caddyfile, template, infraTemplate, renderLines_parts flags]

variable (caddy : Caddy)

/-- Caddy reads plain site blocks in the host's file, which are these sites. -/
def ReadsSites (dir : AppDir) (sites : List Site) : Prop :=
  ∃ body, caddy.Reads dir body ∧ plainFile body = true ∧
    (∀ block ∈ body.blocks, ∀ entry ∈ block.2.entries, knownEntry entry = true) ∧
    body.blocks.map siteOf = sites

theorem readsSites_of_lines {dir : AppDir} {lines : List Text} {sites : List Site}
    (hLines : dir.caddyfile = some lines) (hSites : readSites lines = some (true, sites)) :
    ReadsSites caddy dir sites := by
  obtain ⟨body, hRead, hBody⟩ := Option.map_eq_some_iff.mp hSites
  simp only [Prod.mk.injEq, Bool.and_eq_true, List.all_eq_true, Bool.not_eq_true',
    List.contains_eq_mem, decide_eq_false_iff_not] at hBody
  obtain ⟨⟨⟨hBreaks, hPlain⟩, hKnown⟩, hSame⟩ := hBody
  have hParse : caddy.parse lines = some body :=
    caddy.parse_plain lines body hBreaks hPlain (BlockText.lines_of_read hRead).symm
  exact ⟨body, ⟨lines, hLines, hParse⟩, hPlain, hKnown, hSame⟩

/-- The sites of a host that serves the template, whatever the secrets. -/
theorem Served.sites {release : Release} {dir : AppDir} (served : Served awk release nodeIp dir)
    (template : release.template = infraTemplate) :
    ReadsSites caddy dir (hostSites (nodeIp = server1Ip)) := by
  have hDirective : ∀ pair : CertPair, directive (roleEnv release.secrets nodeIp) pair ∈
      [[], pair.directive] := by
    intro pair
    rcases directive_cases (roleEnv release.secrets nodeIp) pair with h | h <;> simp [h]
  refine readsSites_of_lines caddy (served_lines served template) ?_
  have hImage : substitute awk (runVars awk (roleEnv release.secrets nodeIp)) =
      image (roleSubs (directive (roleEnv release.secrets nodeIp) mainPair)
        (directive (roleEnv release.secrets nodeIp) nofeebookingPair)
        (directive (roleEnv release.secrets nodeIp) wwwPair)) :=
    funext fun line => role_substitute awk release.secrets nodeIp line (directives_env _)
  rw [selected_flagEnv, selected_roleLines, hImage]
  exact sites_read _ _ (hDirective mainPair) _ (hDirective nofeebookingPair) _ (hDirective wwwPair)

/-! ### Requests -/

def localhost : Text := "localhost".toList

variable {caddy} {dir : AppDir} {sites : List Site}

end HelloCounter.Deploy
