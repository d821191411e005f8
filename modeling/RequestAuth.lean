import RequestAuth.Hex
import RequestAuth.Base58
import RequestAuth.ChaCha20
import RequestAuth.Secp256k1.Signature
import RequestAuth.Text.WhiteSpace
import RequestAuth.Text.Quoted
import RequestAuth.ExtendedKey.Node
import RequestAuth.AccessKey
import RequestAuth.HeaderSet
import RequestAuth.Nonce
import RequestAuth.Authenticator
import RequestAuth.Verifier
import RequestAuth.Session
import RequestAuth.Relay
import RequestAuth.Main
import RequestAuth.Proofs.Verification
import RequestAuth.Proofs.Session
import RequestAuth.Proofs.Relay
import RequestAuth.Proofs.NonceUniqueness
import RequestAuth.Proofs.Attempt
import RequestAuth.Proofs.NonceAccounting
import RequestAuth.Proofs.MessageLayout
import RequestAuth.Proofs.SigningMode
import RequestAuth.Proofs.AuthenticationFailure
import RequestAuth.Proofs.KeyText
import RequestAuth.Proofs.Resolution
import RequestAuth.Proofs.FailurePhase
import RequestAuth.Proofs.CommandKeys
import RequestAuth.Proofs.CommandOutput
import RequestAuth.Proofs.LogSecrecy
import RequestAuth.Proofs.AccessKeyText
import RequestAuth.Proofs.ExtendedKeyRoundTrip
import RequestAuth.Proofs.Neutering
import RequestAuth.Proofs.KeyDispatch
import RequestAuth.Proofs.PublicKeyEquality
import RequestAuth.Proofs.CompactKey
import RequestAuth.Proofs.SeededNonces
import RequestAuth.Proofs.EffectiveBody
import RequestAuth.Proofs.SignatureForm
import RequestAuth.Proofs.ConfigurationText
import RequestAuth.Proofs.ConfigurationFields
