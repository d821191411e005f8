import RequestAuth.Proofs.ExtendedKeyRoundTrip

namespace RequestAuth

namespace ExtendedKey

open Secp256k1

theorem Payload.text_eq_iff {a b : Payload} :
    a.text = b.text ↔
      a.label.version = b.label.version ∧ a.place = b.place ∧ a.key = b.key := by
  constructor
  · intro h
    have hbytes : a.toBytes = b.toBytes := Base58.encodeCheck_injective h
    have hparts := congrArg (ofBytes []) hbytes
    rw [ofBytes_toBytes, ofBytes_toBytes, Payload.mk.injEq, Label.mk.injEq] at hparts
    exact ⟨hparts.1.2, hparts.2⟩
  · rintro ⟨hversion, hplace, hkey⟩
    rw [text, text, toBytes, toBytes, hversion, hplace, hkey]

namespace PublicNode

theorem ofText_of_decode {text : String} {payload : Payload} {key : PublicKey}
    (hp : decode (Text.trim text) = .ok payload) (hpublic : payload.label.IsPublic)
    (hkey : key.IsWrittenAs payload.key.toBytes) :
    ofText text = .ok ⟨payload.label, payload.place, key⟩ :=
  ofText_eq_ok_iff.2 ⟨payload, hp, ofPayload_eq_ok_iff.2
    ⟨hpublic, PublicKey.ofCompressed?_eq_some_iff.2 hkey, rfl, rfl⟩⟩

theorem same_iff {a b : PublicNode} (ha : a.key.toPoint.OnCurve) (hb : b.key.toPoint.OnCurve) :
    a.Same b ↔ a.label.version = b.label.version ∧ a.place = b.place ∧ a.key = b.key := by
  rw [Same, text, text, Payload.text_eq_iff]
  refine and_congr_right fun _ ↦ and_congr_right fun _ ↦ ?_
  exact ⟨PublicKey.eq_of_compressed_eq ha hb, congrArg PublicKey.compressed⟩

/-- Keys that were read are the same just if their payloads have one version and one place and stand
for one point, in whatever form. -/
theorem same_iff_payloads_agree {a b : String} {m n : PublicNode} (ha : ofText a = .ok m)
    (hb : ofText b = .ok n) :
    ∃ p q, decode (Text.trim a) = .ok p ∧ decode (Text.trim b) = .ok q ∧
      (m.Same n ↔ p.label.version = q.label.version ∧ p.place = q.place ∧
        ∃ point : PublicKey,
          point.IsWrittenAs p.key.toBytes ∧ point.IsWrittenAs q.key.toBytes) := by
  obtain ⟨p, hp, hm⟩ := ofText_eq_ok_iff.1 ha
  obtain ⟨q, hq, hn⟩ := ofText_eq_ok_iff.1 hb
  obtain ⟨-, hmkey, hmlabel, hmplace⟩ := ofPayload_eq_ok_iff.1 hm
  obtain ⟨-, hnkey, hnlabel, hnplace⟩ := ofPayload_eq_ok_iff.1 hn
  have hmwritten := PublicKey.ofCompressed?_eq_some_iff.1 hmkey
  have hnwritten := PublicKey.ofCompressed?_eq_some_iff.1 hnkey
  have hpoint : m.key = n.key ↔
      ∃ point : PublicKey, point.IsWrittenAs p.key.toBytes ∧ point.IsWrittenAs q.key.toBytes := by
    constructor
    · intro h
      exact ⟨m.key, hmwritten, h ▸ hnwritten⟩
    · rintro ⟨point, hpw, hqw⟩
      rw [← PublicKey.ofCompressed?_eq_some_iff] at hpw hqw
      exact Option.some.inj ((hmkey.symm.trans hpw).trans (hqw.symm.trans hnkey))
  refine ⟨p, q, hp, hq, ?_⟩
  rw [same_iff hmwritten.onCurve hnwritten.onCurve, hmlabel, hnlabel, hmplace, hnplace, hpoint]

theorem same_iff_payloads_agree_compact :
    ∃ m n, ofText (" " ++ ("xpub661MyMwAqRbcG1wepzSKy7hDbc5tDuzAzSSZ9qufJNWb97QUgGsDk6XVy" ++
        "2z8CUqM1fxipZqZbnQgb2MVvEABiEVsXkDttyHrpJuxDutznP2") ++ "\n") = .ok m ∧
      ofText ("\n" ++ ("xpub661MyMwAqRbcG1wepzSKy7hDbc5tDuzAzSSZ9qufJNWb97QUgGsDk6XVx" ++
        "w9tfnVFTPw3R76St3Ygj4ZBAtK2m7yFAq1aAXEAqLtnk6SqwFj") ++ "\t") = .ok n ∧ m.Same n := by
  have hcompact : decode (Text.trim (" " ++ ("xpub661MyMwAqRbcG1wepzSKy7hDbc5tDuzAzSSZ9qufJNWb9" ++
      "7QUgGsDk6XVy2z8CUqM1fxipZqZbnQgb2MVvEABiEVsXkDttyHrpJuxDutznP2") ++ "\n")) =
      .ok ⟨Network.main.publicLabel, ⟨0, .ofNat 4 0, .ofNat 4 0,
        .ofNat 32 0x9414886b1ebf025db067a4cbd13a0903fbd9733a5372bba1b58bd72c1699b798⟩,
        ⟨5 :: Bytes.ofNat 32 0x79be667ef9dcbbac55a06295ce870b07029bfcdb2dce28d959f2815b16f81798,
          rfl⟩⟩ :=
    decode_trim_between (by decide +kernel) (by decide) (by decide) (by decide) (by decide)
  have hcompressed : decode (Text.trim ("\n" ++ ("xpub661MyMwAqRbcG1wepzSKy7hDbc5tDuzAzSSZ9" ++
      "qufJNWb97QUgGsDk6XVxw9tfnVFTPw3R76St3Ygj4ZBAtK2m7yFAq1aAXEAqLtnk6SqwFj") ++ "\t")) =
      .ok ⟨Network.main.publicLabel, ⟨0, .ofNat 4 0, .ofNat 4 0,
        .ofNat 32 0x9414886b1ebf025db067a4cbd13a0903fbd9733a5372bba1b58bd72c1699b798⟩,
        ⟨2 :: Bytes.ofNat 32 0x79be667ef9dcbbac55a06295ce870b07029bfcdb2dce28d959f2815b16f81798,
          rfl⟩⟩ :=
    decode_trim_between (by decide +kernel) (by decide) (by decide) (by decide) (by decide)
  have hkey := PublicKey.isWrittenAs_generator (.inr rfl)
  have hkey' := PublicKey.isWrittenAs_generator (.inl rfl)
  have hread := ofText_of_decode hcompact rfl hkey
  have hread' := ofText_of_decode hcompressed rfl hkey'
  obtain ⟨p, q, hp, hq, hsame⟩ := same_iff_payloads_agree hread hread'
  obtain rfl := Except.ok.inj (hcompact.symm.trans hp)
  obtain rfl := Except.ok.inj (hcompressed.symm.trans hq)
  exact ⟨_, _, hread, hread', hsame.2 ⟨rfl, rfl, _, hkey, hkey'⟩⟩

end PublicNode

end ExtendedKey

end RequestAuth
