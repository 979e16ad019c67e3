import Ratchet.Layout.Lawful
import Ratchet.Layout.Protocol

/-!
# Stored forms are lawful

A layout of the protocol is put together from lawful ones, and the type it stores
corresponds to the tuple of its fields, so it is lawful. (For signed prekeys and
bundles this is part of what is said about restoring them.)
-/

set_option autoImplicit false

namespace Ratchet

namespace Layout

/-! ## Keys and chains -/

theorem lawful_publicKey : publicKey.Lawful :=
  lawful_via (lawful_octets (by decide)) (fun _ => rfl) fun _ => rfl

theorem lawful_privateKey : privateKey.Lawful :=
  lawful_via (lawful_octets (by decide)) (fun _ => rfl) fun _ => rfl

theorem lawful_keyPair : keyPair.Lawful :=
  lawful_via (lawful_pair lawful_publicKey lawful_privateKey) (fun _ => rfl) fun _ => rfl

theorem lawful_kdf : kdf.Lawful where
  encode_ne_nil value := by cases value <;> exact lawful_word.encode_ne_nil _
  decode_encode_append value rest _ := by
    cases value
    · simp only [kdf]
      rw [lawful_word.decode_encode_append 0 rest (by decide)]
      rfl
    · simp only [kdf]
      rw [lawful_word.decode_encode_append 1 rest (by decide)]
      rfl
  eq_encode_append bytes value rest read := by
    simp only [kdf] at read
    split at read
    · rename_i found
      cases read
      exact lawful_word.eq_encode_append _ _ _ found
    · rename_i found
      cases read
      exact lawful_word.eq_encode_append _ _ _ found
    · cases read

theorem lawful_chainKey : chainKey.Lawful :=
  lawful_via (lawful_pair lawful_kdf (lawful_pair (lawful_octets (by decide)) lawful_word))
    (fun _ => rfl) fun _ => rfl

theorem lawful_rootKey : rootKey.Lawful :=
  lawful_via (lawful_pair lawful_kdf (lawful_octets (by decide))) (fun _ => rfl) fun _ => rfl

theorem lawful_messageKeys : messageKeys.Lawful :=
  lawful_via
    (lawful_pair (lawful_octets (by decide)) (lawful_pair (lawful_octets (by decide))
      (lawful_pair (lawful_octets (by decide)) lawful_word)))
    (fun _ => rfl) fun _ => rfl

/-! ## Sessions -/

theorem lawful_sendingChain : sendingChain.Lawful :=
  lawful_via (lawful_pair lawful_keyPair lawful_chainKey) (fun _ => rfl) fun _ => rfl

theorem lawful_receivingChain : receivingChain.Lawful :=
  lawful_via
    (lawful_pair lawful_publicKey (lawful_pair lawful_chainKey (lawful_list lawful_messageKeys)))
    (fun _ => rfl) fun _ => rfl

theorem lawful_pendingPrekey : pendingPrekey.Lawful :=
  lawful_via (lawful_pair (lawful_option lawful_word) (lawful_pair lawful_word lawful_publicKey))
    (fun _ => rfl) fun _ => rfl

theorem lawful_pendingExchange : pendingExchange.Lawful :=
  lawful_via
    (lawful_pair lawful_word (lawful_pair lawful_keyPair
      (lawful_pair lawful_keyPair lawful_keyPair)))
    (fun _ => rfl) fun _ => rfl

theorem lawful_session : session.Lawful :=
  lawful_via
    (lawful_pair lawful_byte (lawful_pair lawful_publicKey (lawful_pair lawful_publicKey
      (lawful_pair lawful_rootKey (lawful_pair lawful_word
        (lawful_pair (lawful_option lawful_sendingChain)
          (lawful_pair (lawful_list lawful_receivingChain)
            (lawful_pair (lawful_option lawful_pendingExchange)
              (lawful_pair (lawful_option lawful_pendingPrekey)
                (lawful_option lawful_publicKey))))))))))
    (fun _ => rfl) fun _ => rfl

theorem lawful_record : record.Lawful :=
  lawful_via (lawful_pair (lawful_option lawful_session) (lawful_list lawful_session))
    (fun _ => rfl) fun _ => rfl

/-! ## Prekeys and addresses -/

theorem lawful_oneTimePrekey : oneTimePrekey.Lawful :=
  lawful_via (lawful_pair lawful_word lawful_keyPair) (fun _ => rfl) fun _ => rfl

theorem lawful_uuid : uuid.Lawful where
  encode_ne_nil value empty := by
    have length : (uuid.encode value).length = 0 := by rw [empty]; rfl
    simp [uuid] at length
  decode_encode_append value rest _ := by
    simp only [uuid, List.append_assoc]
    rw [long_decode_littleEndian 16 (by decide)]
    exact (lawful_octets (by decide)).decode_encode_append value rest (by simp [octets])
  eq_encode_append bytes value rest read := by
    simp only [uuid] at read
    split at read
    · rename_i found
      have inner := (lawful_octets (by decide)).eq_encode_append _ _ _ read
      rw [eq_littleEndian_append found, inner]
      simp [uuid, octets]
    · cases read

theorem lawful_address : address.Lawful :=
  lawful_via (lawful_pair lawful_publicKey lawful_uuid) (fun _ => rfl) fun _ => rfl

end Layout

end Ratchet
