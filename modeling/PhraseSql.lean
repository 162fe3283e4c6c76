import PhraseSql.Main
import PhraseSql.Payload
import PhraseSql.Run
import PhraseSql.Service.Router
import PhraseSql.Proofs.Service.Dispatch
import PhraseSql.Proofs.Service.Fidelity
import PhraseSql.Proofs.Service.Envelope
import PhraseSql.Proofs.Service.Refusal
import PhraseSql.Proofs.Service.ContentType
import PhraseSql.Proofs.Settings.Port
import PhraseSql.Proofs.Settings.Word
import PhraseSql.Proofs.Settings.Config
import PhraseSql.Proofs.Settings.Address
import PhraseSql.Proofs.Log.Directive
import PhraseSql.Proofs.Run
import PhraseSql.Proofs.Objects
import PhraseSql.Proofs.Report
import PhraseSql.Proofs.Rules
import PhraseSql.Proofs.Service.Told
import PhraseSql.Proofs.Reread
import PhraseSql.Proofs.Literals
