import PreviewApps.Cluster.Deploy
import PreviewApps.Cluster.Logs
import PreviewApps.Cluster.Query
import PreviewApps.Cluster.Script
import PreviewApps.Locks
import PreviewApps.Memory.Backend
import PreviewApps.Registry.Handshake
import PreviewApps.Settings.Variables
import PreviewApps.Proofs.Rule.Grammar
import PreviewApps.Proofs.Rule.RoundTrip
import PreviewApps.Proofs.Assoc
import PreviewApps.Proofs.Json.RoundTrip
import PreviewApps.Proofs.Cluster.ReadBack
import PreviewApps.Proofs.Agreement
import PreviewApps.Proofs.Cluster.History
import PreviewApps.Proofs.Cluster.Failures
import PreviewApps.Proofs.Manifest.References
import PreviewApps.Proofs.Cluster.Grounding
import PreviewApps.Proofs.Path
import PreviewApps.Proofs.Text.Base64
import PreviewApps.Proofs.Manifest.MountedFiles
import PreviewApps.Proofs.Stopping
import PreviewApps.Proofs.Rule.Provenance
import PreviewApps.Proofs.Json.Schema
import PreviewApps.Proofs.Traefik.Resource
import PreviewApps.Proofs.Traefik.Conversion
import PreviewApps.Proofs.Memory.History
import PreviewApps.Proofs.Cluster.Contents
import PreviewApps.Proofs.Cluster.Redeployment
import PreviewApps.Proofs.Cluster.Isolation
import PreviewApps.Proofs.Cluster.Objects
import PreviewApps.Proofs.Cluster.ClaimKeeping
import PreviewApps.Proofs.Json.Settling
import PreviewApps.Proofs.Cluster.Sparing
import PreviewApps.Proofs.Cluster.Plans
import PreviewApps.Proofs.Cluster.Planned
import PreviewApps.Proofs.Cluster.ClaimOrder
import PreviewApps.Proofs.Cluster.Completed
import PreviewApps.Proofs.Cluster.Repetition
import PreviewApps.Proofs.Spellings
import PreviewApps.Proofs.Memory.Configs
import PreviewApps.Proofs.DefaultRoutes
import PreviewApps.Proofs.Traefik.Inheritance
import PreviewApps.Proofs.Registry.ImageReference
import PreviewApps.Proofs.Text.Lowercase
import PreviewApps.Proofs.Registry.Challenge
import PreviewApps.Proofs.Registry.Exchange
import PreviewApps.Proofs.Registry.Handshake
import PreviewApps.Proofs.Registry.Course
import PreviewApps.Proofs.Registry.Secrecy
import PreviewApps.Proofs.Text.Order
import PreviewApps.Proofs.Manifest.InsertionOrder
import PreviewApps.Proofs.Manifest.FileVolumes
import PreviewApps.Proofs.Manifest.VolumeNames
import PreviewApps.Proofs.Cluster.Backing
import PreviewApps.Proofs.Cluster.Sightings
import PreviewApps.Proofs.Placement
import PreviewApps.Proofs.Traefik.Middlewares
import PreviewApps.Proofs.Cluster.StoredMiddlewares
import PreviewApps.Proofs.Stacking
import PreviewApps.Proofs.Traefik.Encryption
import PreviewApps.Proofs.Traefik.Rewriting
import PreviewApps.Proofs.Cluster.Scaling
import PreviewApps.Proofs.Text.Digit
import PreviewApps.Proofs.Time.Iso
import PreviewApps.Proofs.LogLine
import PreviewApps.Proofs.Binary64
import PreviewApps.Proofs.LogLine.Instant
import PreviewApps.Proofs.Time.Timestamp
import PreviewApps.Proofs.Text.Lines
import PreviewApps.Proofs.Cluster.Logs
import PreviewApps.Proofs.Cluster.WellFormed
import PreviewApps.Proofs.Cluster.Absence
import PreviewApps.Proofs.Cluster.LogStart
import PreviewApps.Proofs.Json.Ascii
import PreviewApps.Proofs.Manifest.PullSecret
import PreviewApps.Proofs.Registry.Written
import PreviewApps.Proofs.Rule.Splitting
import PreviewApps.Proofs.ObjectNames
