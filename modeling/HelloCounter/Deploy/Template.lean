import HelloCounter.Deploy.Placeholders
import HelloCounter.Deploy.Sections

/-! `infra/Caddyfile.template`: its lines, as parts.  Its placeholders are delimited, and nothing is
joined to its directives. -/

namespace HelloCounter.Deploy

def siteLines : List Text :=
  ["hello-world.prakash.yral.com \x7b", "__TLS_DIRECTIVE__", "    encode zstd gzip",
    "    reverse_proxy localhost:3001", "\x7d", "",
    "# To register a new project on *.prakash.yral.com:",
    "#   1. Pick the next available host port (3002, 3003, …).",
    "#   2. Add a block below, replacing the hostname and port.",
    "#   3. In the new project's docker-compose, publish the app on that host port.",
    "#   4. Run the deploy-infra workflow to reload Caddy.", "#", "estatedao.prakash.yral.com \x7b",
    "__TLS_DIRECTIVE__", "    encode zstd gzip", "    reverse_proxy localhost:3002", "\x7d", "",
    "moderation.prakash.yral.com \x7b", "__TLS_DIRECTIVE__", "    encode zstd gzip",
    "    reverse_proxy localhost:3006", "\x7d", ""].map String.toList

def storjBlockLines : List Text :=
  ["storj-interface.yral.com \x7b", "__TLS_DIRECTIVE__", "    encode zstd gzip",
    "    reverse_proxy localhost:3004", "\x7d", "", "storage-interface.prakash.yral.com \x7b",
    "__TLS_DIRECTIVE__", "    encode zstd gzip", "    reverse_proxy localhost:3005",
    "\x7d"].map String.toList

def storjProxyLines : List Text :=
  ["storj-interface.yral.com \x7b", "__TLS_DIRECTIVE__", "    encode zstd gzip",
    "    reverse_proxy __STORJ_SERVER_IP__:3004", "\x7d", "",
    "storage-interface.prakash.yral.com \x7b", "__TLS_DIRECTIVE__", "    encode zstd gzip",
    "    reverse_proxy __STORJ_SERVER_IP__:3005", "\x7d"].map String.toList

def nofeebookingBlockLines : List Text :=
  ["nofeebooking.com, www.nofeebooking.com \x7b", "    tls \x7b", "        issuer acme \x7b",
    "            disable_tlsalpn_challenge", "        \x7d", "    \x7d",
    "    @www host www.nofeebooking.com",
    "    redir @www https://nofeebooking.com\x7buri\x7d permanent", "", "    encode zstd gzip",
    "    reverse_proxy localhost:3003", "\x7d"].map String.toList

def nofeebookingStaticLines : List Text :=
  ["nofeebooking.com:80, www.nofeebooking.com:80 \x7b",
    "    handle /.well-known/acme-challenge/* \x7b",
    "        reverse_proxy __NOFEEBOOKING_SERVER_IP__:80", "    \x7d", "    handle \x7b",
    "        redir https://\x7bhost\x7d\x7buri\x7d permanent", "    \x7d", "\x7d", "",
    "nofeebooking.com:443 \x7b", "__NOFEEBOOKING_TLS_DIRECTIVE__", "    encode zstd gzip",
    "    reverse_proxy localhost:3003", "\x7d", "", "www.nofeebooking.com:443 \x7b",
    "__NOFEEBOOKING_WWW_TLS_DIRECTIVE__", "    redir https://nofeebooking.com\x7buri\x7d permanent",
    "\x7d"].map String.toList

def nofeebookingProxyLines : List Text :=
  ["http://nofeebooking.com \x7b", "    reverse_proxy __NOFEEBOOKING_SERVER_IP__:80", "\x7d", "",
    "http://www.nofeebooking.com \x7b", "    reverse_proxy __NOFEEBOOKING_SERVER_IP__:80",
    "\x7d"].map String.toList

def redirectLines : List Text :=
  ["", "nofeebooking.prakash.yral.com \x7b", "__TLS_DIRECTIVE__",
    "    redir https://nofeebooking.com\x7buri\x7d permanent", "\x7d", ""].map String.toList

def sentryBlockLines : List Text :=
  ["sentry.prakash.yral.com \x7b", "__TLS_DIRECTIVE__", "    encode zstd gzip",
    "    reverse_proxy localhost:9000", "\x7d"].map String.toList

def sentryProxyLines : List Text :=
  ["sentry.prakash.yral.com \x7b", "__TLS_DIRECTIVE__", "    encode zstd gzip",
    "    reverse_proxy __SENTRY_SERVER_IP__:9000", "\x7d"].map String.toList

/-- The names of the markers end in `START` and `END`. -/
theorem not_markerLine {line : Text} (hStart : ¬['T', '_', '_'] <:+: line)
    (hEnd : ¬['D', '_', '_'] <:+: line) : ¬IsMarkerLine line := by
  have hNames : ∀ marker ∈ markers, ['T', '_', '_'] <:+: marker.toList ∨
      ['D', '_', '_'] <:+: marker.toList := by decide +kernel
  rintro ⟨marker, hMarker, hMatch⟩
  have hInfix : marker.toList <:+: line := of_decide_eq_true hMatch
  rcases hNames marker hMarker with h | h
  · exact hStart (h.trans hInfix)
  · exact hEnd (h.trans hInfix)

/-- No line of the template outside the markers looks like one. -/
theorem body_lines : ∀ lines ∈ [siteLines, storjBlockLines, storjProxyLines, [[]],
      nofeebookingBlockLines, nofeebookingStaticLines, nofeebookingProxyLines, redirectLines,
      sentryBlockLines, sentryProxyLines], ∀ line ∈ lines, ¬IsMarkerLine line := by
  have hEnds : ∀ lines ∈ [siteLines, storjBlockLines, storjProxyLines, [[]],
      nofeebookingBlockLines, nofeebookingStaticLines, nofeebookingProxyLines, redirectLines,
      sentryBlockLines, sentryProxyLines], ∀ line ∈ lines,
        ¬['T', '_', '_'] <:+: line ∧ ¬['D', '_', '_'] <:+: line := by
    simp only [siteLines, storjBlockLines, storjProxyLines, nofeebookingBlockLines,
      nofeebookingStaticLines, nofeebookingProxyLines, redirectLines, sentryBlockLines,
      sentryProxyLines, List.map_cons, List.map_nil]
    repeat rw [String.toList_ofList]
    decide +kernel
  intro lines hLines line hLine
  exact not_markerLine (hEnds lines hLines line hLine).1 (hEnds lines hLines line hLine).2

theorem marked : ∀ marker ∈ markers, MarkedBy marker marker.toList := by
  simp only [markers, List.flatMap_cons, List.flatMap_nil, Section.start, Section.stop,
    Section.name, MarkedBy]
  decide +kernel

/-- A section between its markers, each on a line of its own. -/
def sectionPart (s : Section) (body : List Text) (h : ∀ line ∈ body, ¬IsMarkerLine line) : Part :=
  .enclosed s s.start.toList body s.stop.toList (marked _ (by cases s <;> decide)) h
    (marked _ (by cases s <;> decide))

def outsideParts (lines : List Text) (h : ∀ line ∈ lines, ¬IsMarkerLine line) : List Part :=
  lines.attach.map fun line => .outside line.1 (h line.1 line.2)

def infraParts : List Part :=
  outsideParts siteLines (body_lines _ (by simp)) ++
  [sectionPart .storjBlock storjBlockLines (body_lines _ (by simp)),
    sectionPart .storjProxy storjProxyLines (body_lines _ (by simp))] ++
  outsideParts [[]] (body_lines _ (by simp)) ++
  [sectionPart .nofeebookingBlock nofeebookingBlockLines (body_lines _ (by simp)),
    sectionPart .nofeebookingStatic nofeebookingStaticLines (body_lines _ (by simp)),
    sectionPart .nofeebookingProxy nofeebookingProxyLines (body_lines _ (by simp))] ++
  outsideParts redirectLines (body_lines _ (by simp)) ++
  [sectionPart .sentryBlock sentryBlockLines (body_lines _ (by simp)),
    sectionPart .sentryProxy sentryProxyLines (body_lines _ (by simp))]

theorem flatMap_outsideParts {f : Part → List Text}
    (hOutside : ∀ line plain, f (.outside line plain) = [line]) {lines : List Text}
    (h : ∀ line ∈ lines, ¬IsMarkerLine line) : (outsideParts lines h).flatMap f = lines := by
  rw [outsideParts, List.flatMap_map]
  simp only [hOutside]
  rw [← List.map_eq_flatMap, List.attach_map_subtype_val]

/-- The lines of the file. -/
def infraTemplate : List Text := infraParts.flatMap Part.lines

end HelloCounter.Deploy
