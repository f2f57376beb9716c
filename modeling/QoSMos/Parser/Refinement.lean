import QoSMos.Parser.Effect

/-!
# The parser follows the grammar

`Parsed` relates one call of a parser to the symbol it was called for: the call succeeds
exactly when a header stack that still fits the table derives from the symbol, its effect
on the packet is that of the stack, and it reads beyond the captured bytes exactly when it
runs into an empty IPIP payload at their end. Each parser gets one specification, relative
to that of the two IP parsers, and an induction on the depth of nesting closes the knot.
-/

namespace QoSMos

open LabelledPath WeakestPre

/-- The outcome of parsing `x` behind `k` headers, from `s` to `s'`. -/
structure Parsed (b : Memory) (e : Nat) (x : Expected) (k : Nat) (s : ParseState)
    (r : ParseResult) (s' : ParseState) : Prop where
  reads : ReadsInside e s' ↔ ReadsInside e s ∧ ¬ EmptyIpipFrom b e x k
  sound : r = .ok → ∃ hs, Derives b e x hs ∧ k + hs.length ≤ PACKET_MAX_HEADERS ∧
    s'.packet = s.packet.afterHeaders hs ∧
    s'.parsed = s.parsed ++ hs.map fun h => (h.type, h.ptr)
  complete : ∀ hs, Derives b e x hs → k + hs.length ≤ PACKET_MAX_HEADERS → r = .ok
  message : r = .bad → s'.error ≠ none
  quiet : r ≠ .bad → s'.error = s.error

variable {b : Memory} {e p k len : Nat} {sym next : Symbol} {h : Header}
  {s s₁ s₂ s' : ParseState} {r : ParseResult} {ip : IpParsers}

/-- Between `s` and `s₁` the header `h` was entered, and only captured bytes were read. -/
structure Entered (e : Nat) (h : Header) (s s₁ : ParseState) : Prop where
  packet : s₁.packet = s.packet.enter h
  parsed : s₁.parsed = s.parsed ++ [(h.type, h.ptr)]
  error : s₁.error = s.error
  reads : ReadsInside e s₁ ↔ ReadsInside e s

theorem Entered.touched {q n : Nat} (hin : Entered e h s s₁) (hle : q + n ≤ e) :
    Entered e h s (s₁.touched q n) :=
  ⟨hin.packet, hin.parsed, hin.error, (readsInside_touched_of_le hle).trans hin.reads⟩

namespace Parsed

/-- No header can stand at `p`, and the parser did not succeed. -/
theorem of_stuck (hno : ∀ h next, ¬ HeaderAt b e sym p h next) (hsym : sym ≠ .done)
    (hk : k ≤ PACKET_MAX_HEADERS) (hr : r ≠ .ok)
    (hreads : ReadsInside e s' ↔
      ReadsInside e s ∧ ¬ ((∃ len, sym = .payload IPPROTO_IPIP len) ∧ p = e))
    (hmsg : r = .bad → s'.error ≠ none) (hquiet : r ≠ .bad → s'.error = s.error) :
    Parsed b e (sym, p) k s r s' where
  reads := by rw [emptyIpipFrom_stuck hno hk, hreads]
  sound hok := (hr hok).elim
  complete hs hd _ := (not_derives hsym hno hd).elim
  message := hmsg
  quiet := hquiet

/-- The header at `p` is refused with a message, in a place where no read went astray. -/
theorem of_bad (hno : ∀ h next, ¬ HeaderAt b e sym p h next) (hsym : sym ≠ .done)
    (hk : k ≤ PACKET_MAX_HEADERS) (hover : p ≠ e ∨ ∀ len, sym ≠ .payload IPPROTO_IPIP len)
    (hreads : ReadsInside e s' ↔ ReadsInside e s) (hmsg : s'.error ≠ none) :
    Parsed b e (sym, p) k s .bad s' := by
  refine of_stuck hno hsym hk (by simp) ?_ (fun _ => hmsg) (fun h => (h rfl).elim)
  have : ¬ ((∃ len, sym = .payload IPPROTO_IPIP len) ∧ p = e) := by
    rintro ⟨⟨len, hlen⟩, hpe⟩
    rcases hover with h | h
    · exact h hpe
    · exact h len hlen
  simp [hreads, this]

/-- The header at `p` finds the table full. -/
theorem of_full (hh : HeaderAt b e sym p h next) (hpe : p ≠ e) (hr : r = .bad)
    (hreads : ReadsInside e s' ↔ ReadsInside e s) (hmsg : s'.error ≠ none) :
    Parsed b e (sym, p) PACKET_MAX_HEADERS s r s' where
  reads := by
    have hnone : ¬ EmptyIpipFrom b e (sym, p) PACKET_MAX_HEADERS := by
      rw [emptyIpipFrom_iff hh hpe]
      rintro ⟨hs, len, _, hlen⟩
      omega
    simp [hreads, hnone]
  sound hok := by simp [hr] at hok
  complete hs hd hlen := by
    obtain ⟨tl, rfl, _⟩ := (derives_iff hh).mp hd
    simp at hlen
  message _ := hmsg
  quiet hne := (hne hr).elim

/-- The header at `p` is entered from `s` to `s₁`, what follows it is parsed from `s₁`. -/
theorem of_header (hh : HeaderAt b e sym p h next) (hpe : p ≠ e) (hin : Entered e h s s₁)
    (htail : Parsed b e (next, p + h.headerBytes) (k + 1) s₁ r s₂)
    (hout : s'.packet = s.packet.leave h s₂.packet) (hparsed : s'.parsed = s₂.parsed)
    (herror : s'.error = s₂.error) (hreads : s'.reads = s₂.reads) :
    Parsed b e (sym, p) k s r s' where
  reads := by rw [readsInside_congr hreads, htail.reads, hin.reads, emptyIpipFrom_iff hh hpe]
  sound hok := by
    obtain ⟨tl, hd, hlen, hpacket, hlog⟩ := htail.sound hok
    refine ⟨h :: tl, (derives_iff hh).mpr ⟨tl, rfl, hd⟩, ?_, ?_, ?_⟩
    · simp only [List.length_cons]; omega
    · rw [hout, hpacket, hin.packet]; rfl
    · rw [hparsed, hlog, hin.parsed]; simp
  complete hs hd hlen := by
    obtain ⟨tl, rfl, htl⟩ := (derives_iff hh).mp hd
    exact htail.complete tl htl (by simp only [List.length_cons] at hlen; omega)
  message hbad := by rw [herror]; exact htail.message hbad
  quiet hne := by rw [herror, htail.quiet hne, hin.error]

/-- Nothing is expected any more. -/
theorem of_done (hk : k ≤ PACKET_MAX_HEADERS) : Parsed b e (.done, p) k s .ok s where
  reads := by simp [not_emptyIpipFrom_done]
  sound _ := ⟨[], derives_done.mpr rfl, by simpa using hk, rfl, by simp⟩
  complete _ _ _ := rfl
  message hbad := by cases hbad
  quiet _ := rfl

/-- The transport header at `p` is entered from `s` to `s'`. -/
theorem of_transport (hh : HeaderAt b e sym p h .done) (hpe : p ≠ e)
    (hlt : k < PACKET_MAX_HEADERS) (hin : Entered e h s s')
    (hip : h.type ≠ .ipv4 ∧ h.type ≠ .ipv6) : Parsed b e (sym, p) k s .ok s' :=
  of_header hh hpe hin (of_done hlt) (by simp [Packet.leave, hip]) rfl rfl rfl

/-- Captured bytes may be read first. -/
theorem of_touched {x : Expected} {q n : Nat} (hp : Parsed b e x k (s.touched q n) r s')
    (hle : q + n ≤ e) : Parsed b e x k s r s' where
  reads := by rw [hp.reads, readsInside_touched_of_le hle]
  sound := hp.sound
  complete := hp.complete
  message := hp.message
  quiet := hp.quiet

end Parsed

/-- The entry for the header at the cursor is made and completed, unless the table is full. -/
theorem wp_enter {t : ParseState} {message : String} {rest : Parser ParseResult}
    (hc : Cursor b e p k s) (hh : HeaderAt b e sym p h next) (hpe : p ≠ e)
    (hcap : p + h.headerBytes ≤ e) (hpacket : t.packet = s.packet.keep h)
    (hparsed : t.parsed = s.parsed) (herror : t.error = s.error)
    (hreads : ReadsInside e t ↔ ReadsInside e s)
    (hrest : ∀ u, k < PACKET_MAX_HEADERS → Entered e h s u →
      wp rest (Parsed b e (sym, p) k s) u) :
    wp (appendHeader h.type h.headerBytes p) (fun entry u =>
      wp (match entry with
        | none => bad message
        | some i => do
          modifyPacket (·.setTotalBytes i h.totalBytes)
          rest) (Parsed b e (sym, p) k s) u) t := by
  have hct : Cursor b e p k t := hc.keep hpacket
  rw [hct.wp_appendHeader h.type hcap]
  split_ifs with hfull
  · subst hfull
    simp only [wp_bad]
    exact .of_full hh hpe rfl (by simpa using hreads) (by simp)
  · have hlt : k < PACKET_MAX_HEADERS := by have := hc.le; omega
    simp only [wp_bind, wp_modifyPacket]
    refine hrest _ hlt ⟨?_, ?_, by simpa using herror, by simpa using hreads⟩
    · simp only [ParseState.packet_onPacket, ParseState.packet_appended]
      rw [hct.setTotalBytes_push hlt, hpacket, ← hh.ptr]
      rfl
    · simp [hparsed, hh.ptr]

/-! ## Transport headers -/

theorem parseTcp_spec (hc : Cursor b e p k s) (hlen : p + len ≤ e) :
    wp (parseTcp p len e) (Parsed b e (.payload IPPROTO_TCP len, p) k s) s := by
  have hbuf := hc.buffer
  have hsize : TCP_BYTES = 20 := rfl
  have hbad {t : ParseState} (hfit : ¬ (TCP_BYTES ≤ Tcp.doff b p * 4 ∧ Tcp.doff b p * 4 ≤ len))
      (hreads : ReadsInside e t ↔ ReadsInside e s) (herror : t.error ≠ none) :
      Parsed b e (.payload IPPROTO_TCP len, p) k s .bad t := by
    refine .of_bad (fun h next hh => hfit ?_) (by simp) hc.le (.inr ?_) hreads herror
    · simpa +decide using hh.payload_inv
    · simp +decide
  simp only [parseTcp, wp_bind, wp_assertThat, wp_ite, wp_bad, wp_modifyPacket, wp_touch, wp_get,
    ParseState.packet_touched, ParseState.packet_onPacket, hbuf]
  refine ⟨by omega, ?_⟩
  by_cases hmin : (len : Int) < TCP_BYTES
  · rw [if_pos hmin]
    exact hbad (by omega) (by simp) (by simp)
  have hin : p + 12 + 2 ≤ e := by omega
  rw [if_neg hmin]
  split_ifs with hoff hbig
  · exact hbad (by omega) (by simp [readsInside_touched_of_le hin]) (by simp)
  · exact hbad (by omega) (by simp [readsInside_touched_of_le hin]) (by simp)
  have hh : HeaderAt b e (.payload IPPROTO_TCP len) p
      ⟨.tcp, Tcp.doff b p * 4, len, some p⟩ .done := .tcp (by omega) (by omega)
  have hcap : p + Tcp.doff b p * 4 ≤ e := by omega
  refine wp_enter (h := ⟨.tcp, Tcp.doff b p * 4, len, some p⟩) hc hh (by omega) hcap rfl rfl rfl
    (by simp [readsInside_touched_of_le hin]) fun u hlt hu => ?_
  simp only [wp_bind, wp_assertThat, wp_pure]
  exact ⟨by omega, .of_transport hh (by omega) hlt hu (by simp)⟩

theorem parseUdp_spec (hc : Cursor b e p k s) (hlen : p + len ≤ e) :
    wp (parseUdp p len e) (Parsed b e (.payload IPPROTO_UDP len, p) k s) s := by
  have hbuf := hc.buffer
  have hsize : UDP_BYTES = 8 := rfl
  have hbad {t : ParseState} (hfit : ¬ (UDP_BYTES ≤ len ∧ Udp.len b p = len))
      (hreads : ReadsInside e t ↔ ReadsInside e s) (herror : t.error ≠ none) :
      Parsed b e (.payload IPPROTO_UDP len, p) k s .bad t := by
    refine .of_bad (fun h next hh => hfit ?_) (by simp) hc.le (.inr ?_) hreads herror
    · simpa +decide using hh.payload_inv
    · simp +decide
  have hfield : be16At b (p + 4) = Udp.len b p := rfl
  simp only [parseUdp, wp_bind, wp_assertThat, wp_ite, wp_bad, wp_modifyPacket, wp_loadBe16,
    ParseState.packet_onPacket, hbuf, hfield]
  refine ⟨by omega, ?_⟩
  by_cases hmin : (len : Int) < UDP_BYTES
  · rw [if_pos hmin]
    exact hbad (by omega) (by simp) (by simp)
  have hin : p + 4 + 2 ≤ e := by omega
  rw [if_neg hmin]
  split_ifs with hshort hsmall hbig
  · exact hbad (by omega) (by simp [readsInside_touched_of_le hin]) (by simp)
  · exact hbad (by omega) (by simp [readsInside_touched_of_le hin]) (by simp)
  · exact hbad (by omega) (by simp [readsInside_touched_of_le hin]) (by simp)
  have hh : HeaderAt b e (.payload IPPROTO_UDP len) p ⟨.udp, UDP_BYTES, len, some p⟩ .done :=
    .udp (by omega) (by omega)
  have hcap : p + UDP_BYTES ≤ e := by omega
  refine wp_enter (h := ⟨.udp, UDP_BYTES, len, some p⟩) hc hh (by omega) hcap rfl rfl rfl
    (by simp [readsInside_touched_of_le hin]) fun u hlt hu => ?_
  simp only [wp_bind, wp_assertThat, wp_pure]
  exact ⟨by omega, .of_transport hh (by omega) hlt hu (by simp)⟩

/-- Both ICMP parsers, given what the grammar says of their protocol. -/
theorem parseIcmp_spec {function truncated : String} {headerType : HeaderType}
    {protocol icmpLen : Nat} {setPtr : Nat → Packet → Packet} (hc : Cursor b e p k s)
    (hlen : p + len ≤ e) (hpos : 0 < icmpLen) (hipip : protocol ≠ IPPROTO_IPIP)
    (hset : setPtr p s.packet = s.packet.keep ⟨headerType, icmpLen, len, some p⟩)
    (hip : headerType ≠ .ipv4 ∧ headerType ≠ .ipv6)
    (hfits : icmpLen ≤ len → HeaderAt b e (.payload protocol len) p
      ⟨headerType, icmpLen, len, some p⟩ .done)
    (hfits' : ∀ h next, HeaderAt b e (.payload protocol len) p h next → icmpLen ≤ len) :
    wp (parseIcmp function truncated headerType icmpLen setPtr p len e)
      (Parsed b e (.payload protocol len, p) k s) s := by
  simp only [parseIcmp, wp_bind, wp_assertThat, wp_ite, wp_bad, wp_modifyPacket]
  refine ⟨by omega, ?_⟩
  split_ifs with hmin
  · refine .of_bad (fun h next hh => ?_) (by simp) hc.le (.inr fun l => ?_) (by simp) (by simp)
    · have := hfits' h next hh
      omega
    · simp [hipip]
  have hh := hfits (by omega)
  have hcap : p + icmpLen ≤ e := by omega
  refine wp_enter (h := ⟨headerType, icmpLen, len, some p⟩) hc hh (by omega) hcap hset rfl rfl
    (by simp) fun u hlt hu => ?_
  simp only [wp_bind, wp_assertThat, wp_pure]
  exact ⟨by omega, .of_transport hh (by omega) hlt hu hip⟩

theorem parseIcmpv4_spec (hc : Cursor b e p k s) (hlen : p + len ≤ e) :
    wp (parseIcmpv4 p len e) (Parsed b e (.payload IPPROTO_ICMP len, p) k s) s := by
  refine parseIcmp_spec hc hlen (by decide) (by decide) rfl (by simp) .icmpv4 fun h next hh => ?_
  simpa +decide using hh.payload_inv

theorem parseIcmpv6_spec (hc : Cursor b e p k s) (hlen : p + len ≤ e) :
    wp (parseIcmpv6 p len e) (Parsed b e (.payload IPPROTO_ICMPV6 len, p) k s) s := by
  refine parseIcmp_spec hc hlen (by decide) (by decide) rfl (by simp) .icmpv6 fun h next hh => ?_
  simpa +decide using hh.payload_inv

end QoSMos
