import GoIpsec.Session.Authentic
import GoIpsec.Session.History

/-!
# Datagrams the peer did not send

Whoever holds no keys has no influence on the control loop.  A datagram that is
neither of the peer's under the current IKE SA, nor under the superseded one while
that is accepted, leaves no trace: the session and the log are the same before and
after, the liveness clock included.

That needs more than authenticity.  Decoding has to end in an error that the loop
drops, where a panic would end the process (`decodeSKWith_safe`).
-/

namespace GoIpsec.Session

open Golang Ikemsg Ikesa

set_option linter.dupNamespace false

/-- The peer's end of an IKE SA, and what it has sealed under it. -/
structure PeerEnd where
  sa : IKESA
  sent : Set Sealing

/-- The datagram is one the peer has produced under the SA. -/
def PeerEnd.Produced (c : Crypto) (p : PeerEnd) (raw : Bytes) : Prop :=
  ∃ x ∈ p.sent, raw = x.datagram c p.sa

/-- `sa` is our end of the peer's SA, and its integrity check is ideal on `raw`. -/
structure PeerEnd.Ideal (c : Crypto) (p : PeerEnd) (sa : IKESA) (raw : Bytes) : Prop where
  mirror : Mirror p.sa sa
  oneSK : ∀ x ∈ p.sent, OneSK c p.sa x
  unforged : Unforged c sa p.sa p.sent raw

/-- The superseded IKE SA while it is accepted. -/
def Session.inGrace (s : Session) (env : Env) : Option IkeCtx :=
  if (env.clock .decode).before s.oldIKEUntil then s.oldIKE else none

section

variable {c : Crypto} {env : Env} {raw : Bytes}

theorem PeerEnd.Ideal.produced {p : PeerEnd} {sa : IKESA} (h : p.Ideal c sa raw)
    {r : Message × Payloads} {icvOK : Bool} (hdec : decodeSKWith c sa raw = (.ok r, icvOK)) :
    p.Produced c raw :=
  authentic_of_decodeSKWith h.mirror h.oneSK h.unforged hdec

/-- What the peer did not produce is refused with an error. -/
theorem PeerEnd.Ideal.refused {p : PeerEnd} {sa : IKESA} (h : p.Ideal c sa raw)
    (hout : ¬ p.Produced c raw) :
    ∃ text icvOK, decodeSKWith c sa raw = (.error (.err text), icvOK) := by
  have hsafe := decodeSKWith_safe c h.mirror.right raw
  rcases hdec : decodeSKWith c sa raw with ⟨e | r, icvOK⟩
  · obtain ⟨text, rfl⟩ := hsafe e (by rw [hdec])
    exact ⟨text, icvOK, rfl⟩
  · exact absurd (h.produced hdec) hout

theorem Session.decodeIKE_refused {s : Session} {cur old : PeerEnd}
    (hcur : cur.Ideal c s.ikeSA raw) (hold : ∀ ctx, s.inGrace env = some ctx → old.Ideal c ctx.sa raw)
    (hnew : ¬ cur.Produced c raw) (hgrace : (s.inGrace env).isSome → ¬ old.Produced c raw) :
    ∃ text, s.decodeIKE c env raw = .error (.err text) := by
  obtain ⟨text, icvOK, hdec⟩ := hcur.refused hnew
  refine ⟨text, ?_⟩
  simp only [Session.decodeIKE, hdec]
  cases hs : s.oldIKE with
  | none => rfl
  | some ctx =>
      dsimp only
      split
      · rename_i hin
        rw [Bool.and_eq_true] at hin
        have hctx : s.inGrace env = some ctx := by rw [Session.inGrace, if_pos hin.2, hs]
        obtain ⟨text', icvOK', hdec'⟩ := (hold ctx hctx).refused (hgrace (by rw [hctx]; rfl))
        rw [hdec']
      · rfl

/-- A datagram that does not decode is dropped. -/
theorem handleInbound_of_refused {d : Drive} {text : String}
    (h : d.s.decodeIKE c env raw = .error (.err text)) :
    handleInbound c env raw d = (.ok false, d) := by
  have hsession : (session d) = (.ok d.s, d) := rfl
  rw [handleInbound, Proc.bind_of_ok hsession, h]
  rfl

end

/-- Authenticity and non-interference.  If the integrity checks are ideal on `raw`,
then `raw` decodes only if the peer produced it, and a driver in any state that
takes in a `raw` the peer did not produce goes on as if it had not: nothing of the
session changes, nothing is sent and the session is not given up. -/
theorem sk_authentic_noninterfering (c : Crypto) (raw : Bytes) :
    (∀ (p : PeerEnd) (sa : IKESA) (r : Message × Payloads) (icvOK : Bool), p.Ideal c sa raw →
      decodeSKWith c sa raw = (.ok r, icvOK) → p.Produced c raw) ∧
    ∀ (env : Env) (d : Drive) (cur old : PeerEnd), cur.Ideal c d.s.ikeSA raw →
      (∀ ctx, d.s.inGrace env = some ctx → old.Ideal c ctx.sa raw) →
      ¬ cur.Produced c raw → ((d.s.inGrace env).isSome → ¬ old.Produced c raw) →
      handleInbound c env raw d = (.ok false, d) := by
  constructor
  · intro p sa r icvOK h hdec
    exact h.produced hdec
  · intro env d cur old hcur hold hnew hgrace
    obtain ⟨text, hrefused⟩ := Session.decodeIKE_refused hcur hold hnew hgrace
    exact handleInbound_of_refused hrefused

/-- An informational message without payloads, as `sampleSA` encodes it. -/
def sampleWire : Bytes :=
  valueD (encodeSKWith Crypto.sample { sampleSA .initiator with skSeq := 5 } none 1 2
    exchangeInformational 0 3 []).1 []

def sampleSealing : Sealing where
  pre := sampleWire.take 32
  iv := putUint64 6
  padded := [0]

/-- The initiator of `sampleSA`, which has sealed the message `sampleWire`. -/
def samplePeer : PeerEnd where
  sa := sampleSA .initiator
  sent := {sampleSealing}

/-- The message with its last octet changed. -/
def sampleForged : Bytes := sampleWire.dropLast ++ [0]

theorem oneSK_samplePeer (x : Sealing) (hx : x ∈ samplePeer.sent) :
    OneSK Crypto.sample samplePeer.sa x := by
  have hpre : x.pre = sampleWire.take 28 ++ ([] ++ ([payloadNone, 0] ++
      putUint16 (UInt16.ofNat (genericHeaderLen +
        (samplePeer.sa.sealBody Crypto.sample x.pre x.iv x.padded).length)))) := by
    obtain rfl := Set.mem_singleton_iff.mp hx
    decide +kernel
  refine ⟨_, _, payloadSK, _, _, ?_, ?_, .nil _, ?_, hpre⟩
  · decide +kernel
  · decide +kernel
  · obtain rfl := Set.mem_singleton_iff.mp hx
    decide +kernel

/-- The one check that matters for a datagram with the body `data`: it fails, or what
is opened has been sealed. -/
theorem ideal_samplePeer {raw : Bytes} (data : Bytes)
    (hbody : ((parse raw).toOption.bind fun m => firstSK m.payloads).map (·.data) = some data)
    (h : ∀ st ∈ (sampleSA .responder).aead, ∀ pst ∈ samplePeer.sa.aead,
      ∀ padded ∈ Crypto.sample.aeadOpen st.inAEAD.kind st.inAEAD.key (st.inSalt ++ data.take 8)
        (data.drop 8) (raw.take (raw.length - data.length)),
      pst.outSalt ++ sampleSealing.iv = st.inSalt ++ data.take 8 ∧
        Crypto.sample.aeadSeal pst.outAEAD.kind pst.outAEAD.key (pst.outSalt ++ sampleSealing.iv)
          sampleSealing.padded sampleSealing.pre = data.drop 8 ∧
        sampleSealing.pre = raw.take (raw.length - data.length)) :
    samplePeer.Ideal Crypto.sample (sampleSA .responder) raw := by
  have haead : (sampleSA .responder).suite.aead = true := by decide +kernel
  have hm : Mirror samplePeer.sa (sampleSA .responder) := by
    simp only [samplePeer, derivedTogether_sampleSA.mirror]
  refine ⟨hm, oneSK_samplePeer, ⟨fun ha => ?_, ?_⟩⟩
  · rw [haead] at ha
    cases ha
  · intro m enc hparse henc st pst padded hst hpst hopen
    rw [hparse] at hbody
    change (firstSK m.payloads).map (·.data) = some data at hbody
    rw [henc, Option.map_some, Option.some.injEq] at hbody
    rw [hbody] at hopen ⊢
    exact ⟨sampleSealing, rfl, h st hst pst hpst padded hopen⟩

theorem sk_authentic_noninterfering_sample :
    samplePeer.Produced Crypto.sample sampleWire ∧
      handleInbound Crypto.sample (sampleEnv 2) sampleForged (sampleStart .responder) =
        (.ok false, sampleStart .responder) := by
  have hwire : samplePeer.Ideal Crypto.sample (sampleSA .responder) sampleWire :=
    ideal_samplePeer (sampleWire.drop 32) (by decide +kernel) (by decide +kernel)
  have hforged : samplePeer.Ideal Crypto.sample (sampleSA .responder) sampleForged :=
    ideal_samplePeer (sampleForged.drop 32) (by decide +kernel) (by decide +kernel)
  have hdec : ∃ r, decodeSKWith Crypto.sample (sampleSA .responder) sampleWire = (.ok r, true) :=
    ⟨({ skHeader 1 2 exchangeInformational 0 3 with
        payloads := [.sk { innerFirst := 0, data := sampleWire.drop 32 }] }, []), by decide +kernel⟩
  have hsa : (sampleStart .responder).s.ikeSA = sampleSA .responder := by decide +kernel
  have hgrace : (sampleStart .responder).s.inGrace (sampleEnv 2) = none := by decide +kernel
  have hout : ¬ samplePeer.Produced Crypto.sample sampleForged := by
    rintro ⟨x, rfl, hx⟩
    revert hx
    decide +kernel
  obtain ⟨r, hr⟩ := hdec
  refine ⟨(sk_authentic_noninterfering Crypto.sample sampleWire).1 samplePeer _ r true hwire hr, ?_⟩
  refine (sk_authentic_noninterfering Crypto.sample sampleForged).2 (sampleEnv 2) _ samplePeer
    samplePeer (hsa ▸ hforged) ?_ hout ?_
  · intro ctx hctx
    rw [hgrace] at hctx
    cases hctx
  · intro _
    exact hout

end GoIpsec.Session
