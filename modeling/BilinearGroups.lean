import BilinearGroups.Proofs.Backend.TargetCodec
import BilinearGroups.Proofs.Decoding
import BilinearGroups.Proofs.Element.Forms
import BilinearGroups.Proofs.Element.JsonForm
import BilinearGroups.Proofs.Element.Order
import BilinearGroups.Proofs.Element.Powers
import BilinearGroups.Proofs.Element.Refusals
import BilinearGroups.Proofs.Element.ScalarDraws
import BilinearGroups.Proofs.Element.ScalarHash
import BilinearGroups.Proofs.Pairing.AggregateSignature
import BilinearGroups.Proofs.Parameters.TextForm
import BilinearGroups.Proofs.Session.HashDomains
import BilinearGroups.Proofs.Session.Independence
import BilinearGroups.Proofs.Session.Interchange
import BilinearGroups.Proofs.Session.Isolation
import BilinearGroups.Proofs.Session.ParameterForms
import BilinearGroups.Proofs.Session.Simulation
import BilinearGroups.Proofs.Session.Validity
